/-
# The tool cap of Grok

Grok counts the tools of a request through all namespaces and rejects a request with too
many.  `cap_grok_expanded_tools` gives the direct tools the first claim on the limit and
the namespaces what is left, in order.  The budget runs through the forest of the
namespaces once; `retains_tools` says what it leaves there, and `capsTools` what is sent.
-/
import CodexRouter.Base.Json

namespace CodexRouter

/-! ## The forest of tools -/

/-- `is_namespace_tool`. -/
def isNamespaceTool (tool : Value) : Bool := tool.getStr "type" = some "namespace"

mutual

/-- How many tools a tool stands for: a namespace for those under its `tools`. -/
def expandedTool : Value → ℕ
  | .object m => if isNamespaceTool (.object m) then expandedMembers m else 1
  | _ => 1
termination_by structural tool => tool

/-- The tools of a list that are no namespaces, counted through all namespaces. -/
def expandedTools : List Value → ℕ
  | [] => 0
  | tool :: rest => expandedTool tool + expandedTools rest
termination_by structural tools => tools

def expandedMember : String × Value → ℕ
  | (_, .array children) => expandedTools children
  | _ => 0
termination_by structural e => e

def expandedMembers : Members → ℕ
  | [] => 0
  | e :: rest => if e.1 = "tools" then expandedMember e else expandedMembers rest
termination_by structural m => m

end

mutual

/-- The first tool is what is left of the second one: all of it, or a namespace with
what is left of its tools. -/
inductive SubTool : Value → Value → Prop
  | same (tool : Value) : SubTool tool tool
  | inside {m : Members} {children kept : List Value} (hnamespace : isNamespaceTool (.object m) = true)
      (hchildren : Members.get "tools" m = some (.array children)) (hkept : SubForest kept children) :
      SubTool (.object (Members.modify "tools" (fun _ => .array kept) m)) (.object m)

/-- The first list is what is left of the second one, in its order. -/
inductive SubForest : List Value → List Value → Prop
  | nil : SubForest [] []
  | drop {kept tools : List Value} (tool : Value) : SubForest kept tools → SubForest kept (tool :: tools)
  | keep {tool' tool : Value} {kept tools : List Value} : SubTool tool' tool → SubForest kept tools →
      SubForest (tool' :: kept) (tool :: tools)

end

/-! ## The cap -/

/-- What a pass keeps, the budget that is left to it, and how many tools it removed. -/
structure Retention (α : Type) where
  kept : α
  remaining : ℕ
  removed : ℕ

/-- A tool that is no namespace costs one of the budget. -/
def spendTool (remaining : ℕ) (tool : Value) : Retention (List Value) :=
  if remaining > 0 then ⟨[tool], remaining - 1, 0⟩ else ⟨[], remaining, 1⟩

mutual

/-- The closure of `retain_namespace_tool_budget`; what is kept is the tool or nothing. -/
def retainTool (remaining : ℕ) : Value → Retention (List Value)
  | .object m =>
    if isNamespaceTool (.object m) then
      let r := retainMembers remaining m
      ⟨[.object r.kept], r.remaining, r.removed⟩
    else spendTool remaining (.object m)
  | tool => spendTool remaining tool
termination_by structural tool => tool

/-- `retain_namespace_tool_budget`. -/
def retainNamespaceToolBudget (remaining : ℕ) : List Value → Retention (List Value)
  | [] => ⟨[], remaining, 0⟩
  | tool :: rest =>
    let first := retainTool remaining tool
    let others := retainNamespaceToolBudget first.remaining rest
    ⟨first.kept ++ others.kept, others.remaining, first.removed + others.removed⟩
termination_by structural tools => tools

def retainMember (remaining : ℕ) : String × Value → Retention (String × Value)
  | (k, .array children) =>
    let r := retainNamespaceToolBudget remaining children
    ⟨(k, .array r.kept), r.remaining, r.removed⟩
  | e => ⟨e, remaining, 0⟩
termination_by structural e => e

/-- The children of a namespace are those of its first member `tools`. -/
def retainMembers (remaining : ℕ) : Members → Retention Members
  | [] => ⟨[], remaining, 0⟩
  | e :: rest =>
    if e.1 = "tools" then
      let r := retainMember remaining e
      ⟨r.kept :: rest, r.remaining, r.removed⟩
    else
      let r := retainMembers remaining rest
      ⟨e :: r.kept, r.remaining, r.removed⟩
termination_by structural m => m

end

/-- `GROK_MAX_EXPANDED_TOOLS`. -/
def grokMaxExpandedTools : ℕ := 349

/-- `GROK_MAX_EXPANDED_TOOLS_WITH_WEB_SEARCH`. -/
def grokMaxExpandedToolsWithWebSearch : ℕ := 337

/-- The tool that searches the web is among them. -/
def hasWebSearch (tools : List Value) : Bool := tools.any fun tool => tool.getStr "type" = some "web_search"

/-- `max_tools`. -/
def grokMaxTools (tools : List Value) : ℕ :=
  if hasWebSearch tools then grokMaxExpandedToolsWithWebSearch else grokMaxExpandedTools

/-- The tools that are no namespaces. -/
def directTools (tools : List Value) : List Value := tools.filter fun tool => !isNamespaceTool tool

/-- The first pass: the namespaces share the budget, the direct tools stay. -/
def capNamespaces (budget : ℕ) : List Value → Retention (List Value)
  | [] => ⟨[], budget, 0⟩
  | tool :: rest =>
    if isNamespaceTool tool then
      let first := retainTool budget tool
      let others := capNamespaces first.remaining rest
      ⟨first.kept ++ others.kept, others.remaining, first.removed + others.removed⟩
    else
      let others := capNamespaces budget rest
      ⟨tool :: others.kept, others.remaining, others.removed⟩

/-- The second pass, for too many direct tools: only the first of them stay. -/
def keepDirect (budget : ℕ) : List Value → Retention (List Value)
  | [] => ⟨[], budget, 0⟩
  | tool :: rest =>
    if isNamespaceTool tool then keepDirect budget rest
    else
      let first := spendTool budget tool
      let others := keepDirect first.remaining rest
      ⟨first.kept ++ others.kept, others.remaining, first.removed + others.removed⟩

/-- `cap_grok_expanded_tools`: the tools that are sent, and the number of those removed. -/
def capGrokExpandedTools (tools : List Value) : List Value × ℕ :=
  let direct := (directTools tools).length
  let namespaces := capNamespaces (grokMaxTools tools - direct) tools
  if direct > grokMaxTools tools then
    let kept := keepDirect (grokMaxTools tools) namespaces.kept
    (kept.kept, namespaces.removed + kept.removed)
  else (namespaces.kept, namespaces.removed)

/-! ## What a pass leaves -/

/-- What is kept comes out of the budget, and all else is counted as removed. -/
structure Spends {α : Type} (count : α → ℕ) (before : α) (budget : ℕ) (r : Retention α) : Prop where
  spent : count r.kept + r.remaining = budget
  counted : r.removed + count r.kept = count before

theorem expandedTools_append (tools tools' : List Value) :
    expandedTools (tools ++ tools') = expandedTools tools + expandedTools tools' := by
  induction tools with
  | nil => simp [expandedTools]
  | cons tool rest ih =>
    rw [List.cons_append, expandedTools, expandedTools, ih]
    omega

theorem expandedTools_singleton (tool : Value) : expandedTools [tool] = expandedTool tool := by
  simp [expandedTools]

theorem expandedTool_of_direct {tool : Value} (h : isNamespaceTool tool = false) : expandedTool tool = 1 := by
  cases tool with
  | object m => rw [expandedTool, if_neg (by simp [h])]
  | _ => rfl

theorem SubForest.append {kept kept' tools tools' : List Value} (h : SubForest kept tools)
    (h' : SubForest kept' tools') : SubForest (kept ++ kept') (tools ++ tools') := by
  induction tools generalizing kept with
  | nil =>
    cases h
    exact h'
  | cons tool rest ih =>
    cases h with
    | drop _ h => exact .drop tool (ih h)
    | keep htool h => exact .keep htool (ih h)

theorem SubForest.refl (tools : List Value) : SubForest tools tools := by
  induction tools with
  | nil => exact .nil
  | cons tool rest ih => exact .keep (.same tool) ih

/-- A tool that is no namespace is kept while there is budget. -/
theorem spends_spendTool {remaining : ℕ} {tool : Value} (h : isNamespaceTool tool = false) :
    Spends expandedTools [tool] remaining (spendTool remaining tool)
      ∧ SubForest (spendTool remaining tool).kept [tool] := by
  have hone := expandedTool_of_direct h
  unfold spendTool
  split
  · refine ⟨⟨?_, ?_⟩, .refl _⟩
    · show expandedTools [tool] + (remaining - 1) = remaining
      rw [expandedTools_singleton, hone]
      omega
    · exact Nat.zero_add _
  · refine ⟨⟨?_, ?_⟩, .drop tool .nil⟩
    · simp [expandedTools]
    · simp [expandedTools, hone]

/-- The members afterwards are the members before, with what is left of the children. -/
def SubMembers (kept m : Members) : Prop :=
  kept = m ∨ ∃ children kept', Members.get "tools" m = some (.array children) ∧ SubForest kept' children
    ∧ kept = Members.modify "tools" (fun _ => .array kept') m

/-- A namespace stays one. -/
theorem isNamespaceTool_modify (f : Value → Value) (m : Members) :
    isNamespaceTool (.object (Members.modify "tools" f m)) = isNamespaceTool (.object m) := by
  unfold isNamespaceTool Value.getStr
  rw [Value.get_object, Value.get_object, Members.get_modify_ne (by decide)]

theorem isNamespaceTool_of_subMembers {kept m : Members} (h : SubMembers kept m) :
    isNamespaceTool (.object kept) = isNamespaceTool (.object m) := by
  rcases h with rfl | ⟨_, _, -, -, rfl⟩
  · rfl
  · exact isNamespaceTool_modify _ m

theorem SubMembers.subTool {kept m : Members} (h : SubMembers kept m)
    (hnamespace : isNamespaceTool (.object m) = true) : SubTool (.object kept) (.object m) := by
  rcases h with rfl | ⟨_, _, hget, hkept, rfl⟩
  · exact .same _
  · exact .inside hnamespace hget hkept

/-- One pass over two parts of a list. -/
theorem Spends.append {tools tools' : List Value} {budget : ℕ} {r r' : Retention (List Value)}
    (h : Spends expandedTools tools budget r) (h' : Spends expandedTools tools' r.remaining r') :
    Spends expandedTools (tools ++ tools') budget ⟨r.kept ++ r'.kept, r'.remaining, r.removed + r'.removed⟩ := by
  obtain ⟨hspent, hcounted⟩ := h
  obtain ⟨hspent', hcounted'⟩ := h'
  constructor
  · show expandedTools (r.kept ++ r'.kept) + r'.remaining = budget
    rw [expandedTools_append]
    omega
  · show r.removed + r'.removed + expandedTools (r.kept ++ r'.kept) = expandedTools (tools ++ tools')
    rw [expandedTools_append, expandedTools_append]
    omega

mutual

theorem retains_tool (remaining : ℕ) : ∀ tool : Value,
    Spends expandedTools [tool] remaining (retainTool remaining tool)
      ∧ SubForest (retainTool remaining tool).kept [tool]
  | .object m => by
    obtain ⟨⟨hspent, hcounted⟩, hsub⟩ := retains_members remaining m
    rw [retainTool]
    split
    · rename_i hnamespace
      have hkept := (isNamespaceTool_of_subMembers hsub).trans hnamespace
      refine ⟨⟨?_, ?_⟩, .keep (hsub.subTool hnamespace) .nil⟩
      · show expandedTools [.object (retainMembers remaining m).kept] + (retainMembers remaining m).remaining
          = remaining
        rw [expandedTools_singleton, expandedTool, if_pos hkept]
        exact hspent
      · show (retainMembers remaining m).removed + expandedTools [.object (retainMembers remaining m).kept]
          = expandedTools [.object m]
        rw [expandedTools_singleton, expandedTools_singleton, expandedTool, expandedTool, if_pos hkept,
          if_pos hnamespace]
        exact hcounted
    · rename_i hdirect
      exact spends_spendTool (Bool.eq_false_iff.mpr hdirect)
  | .null => spends_spendTool rfl
  | .bool _ => spends_spendTool rfl
  | .number _ => spends_spendTool rfl
  | .string _ => spends_spendTool rfl
  | .array _ => spends_spendTool rfl
termination_by structural tool => tool

/-- What the budget leaves of a forest. -/
theorem retains_tools (remaining : ℕ) : ∀ tools : List Value,
    Spends expandedTools tools remaining (retainNamespaceToolBudget remaining tools)
      ∧ SubForest (retainNamespaceToolBudget remaining tools).kept tools
  | [] => by
    rw [retainNamespaceToolBudget]
    exact ⟨⟨Nat.zero_add _, rfl⟩, .nil⟩
  | tool :: rest => by
    obtain ⟨htool, hsub⟩ := retains_tool remaining tool
    obtain ⟨hrest, hsub'⟩ := retains_tools (retainTool remaining tool).remaining rest
    rw [retainNamespaceToolBudget]
    exact ⟨htool.append hrest, hsub.append hsub'⟩
termination_by structural tools => tools

theorem retains_member (remaining : ℕ) : ∀ e : String × Value,
    Spends expandedMember e remaining (retainMember remaining e)
      ∧ ((retainMember remaining e).kept = e ∨ ∃ children kept', e.2 = .array children
        ∧ SubForest kept' children ∧ (retainMember remaining e).kept = (e.1, .array kept'))
  | (k, .array children) => by
    obtain ⟨⟨hspent, hcounted⟩, hsub⟩ := retains_tools remaining children
    rw [retainMember]
    refine ⟨⟨?_, ?_⟩, .inr ⟨children, _, rfl, hsub, rfl⟩⟩
    · show expandedMember (k, .array _) + _ = _
      rw [expandedMember]
      exact hspent
    · show _ + expandedMember (k, .array _) = expandedMember (k, .array children)
      rw [expandedMember, expandedMember]
      exact hcounted
  | (_, .null) => ⟨⟨Nat.zero_add _, rfl⟩, .inl rfl⟩
  | (_, .bool _) => ⟨⟨Nat.zero_add _, rfl⟩, .inl rfl⟩
  | (_, .number _) => ⟨⟨Nat.zero_add _, rfl⟩, .inl rfl⟩
  | (_, .string _) => ⟨⟨Nat.zero_add _, rfl⟩, .inl rfl⟩
  | (_, .object _) => ⟨⟨Nat.zero_add _, rfl⟩, .inl rfl⟩
termination_by structural e => e

theorem retains_members (remaining : ℕ) : ∀ m : Members,
    Spends expandedMembers m remaining (retainMembers remaining m) ∧ SubMembers (retainMembers remaining m).kept m
  | [] => by
    rw [retainMembers]
    exact ⟨⟨Nat.zero_add _, rfl⟩, .inl rfl⟩
  | e :: rest => by
    rw [retainMembers]
    split
    -- the first member with the key `tools` takes the budget, the others stay
    · rename_i htools
      obtain ⟨⟨hspent, hcounted⟩, hsub⟩ := retains_member remaining e
      have hkey : (retainMember remaining e).kept.1 = "tools" := by
        rcases hsub with hsame | ⟨_, _, -, -, hkept⟩
        · rw [hsame]
          exact htools
        · rw [hkept]
          exact htools
      refine ⟨⟨?_, ?_⟩, ?_⟩
      · show expandedMembers ((retainMember remaining e).kept :: rest) + _ = _
        rw [expandedMembers, if_pos hkey]
        exact hspent
      · show _ + expandedMembers ((retainMember remaining e).kept :: rest) = expandedMembers (e :: rest)
        rw [expandedMembers, expandedMembers, if_pos hkey, if_pos htools]
        exact hcounted
      · obtain ⟨k, v⟩ := e
        dsimp only at htools
        subst htools
        rcases hsub with hsame | ⟨children, kept', hchildren, hkept', hkept⟩
        · exact .inl (congrArg (· :: rest) hsame)
        · dsimp only at hchildren
          subst hchildren
          refine .inr ⟨children, kept', Members.get_cons_self _ _ _, hkept', ?_⟩
          show (retainMember remaining ("tools", .array children)).kept :: rest = _
          rw [hkept, Members.modify, if_pos rfl]
    · rename_i hother
      obtain ⟨⟨hspent, hcounted⟩, hsub⟩ := retains_members remaining rest
      refine ⟨⟨?_, ?_⟩, ?_⟩
      · show expandedMembers (e :: (retainMembers remaining rest).kept) + _ = _
        rw [expandedMembers, if_neg hother]
        exact hspent
      · show _ + expandedMembers (e :: (retainMembers remaining rest).kept) = expandedMembers (e :: rest)
        rw [expandedMembers, expandedMembers, if_neg hother, if_neg hother]
        exact hcounted
      · obtain ⟨k, v⟩ := e
        rcases hsub with hsame | ⟨children, kept', hget, hkept', hkept⟩
        · exact .inl (congrArg (_ :: ·) hsame)
        · refine .inr ⟨children, kept', (Members.get_cons_ne hother v rest).trans hget, hkept', ?_⟩
          show (k, v) :: (retainMembers remaining rest).kept = _
          rw [hkept, Members.modify, if_neg hother]
termination_by structural m => m

end

/-! ## What is sent -/

theorem directTools_cons_of_namespace {tool : Value} (h : isNamespaceTool tool = true) (rest : List Value) :
    directTools (tool :: rest) = directTools rest := List.filter_cons_of_neg (by simp [h])

theorem directTools_cons_of_direct {tool : Value} (h : isNamespaceTool tool = false) (rest : List Value) :
    directTools (tool :: rest) = tool :: directTools rest := List.filter_cons_of_pos (by simp [h])

theorem length_directTools_le (tools : List Value) : (directTools tools).length ≤ expandedTools tools := by
  induction tools with
  | nil => exact Nat.zero_le _
  | cons tool rest ih =>
    rw [expandedTools]
    by_cases hnamespace : isNamespaceTool tool = true
    · rw [directTools_cons_of_namespace hnamespace]
      omega
    · have hdirect := Bool.eq_false_iff.mpr hnamespace
      rw [directTools_cons_of_direct hdirect, List.length_cons, expandedTool_of_direct hdirect]
      omega

/-- A namespace is kept with what is left of it. -/
theorem retainTool_of_namespace {tool : Value} (h : isNamespaceTool tool = true) (budget : ℕ) :
    ∃ kept, (retainTool budget tool).kept = [kept] ∧ isNamespaceTool kept = true := by
  cases tool with
  | object m =>
    refine ⟨.object (retainMembers budget m).kept, ?_, ?_⟩
    · rw [retainTool, if_pos h]
    · exact (isNamespaceTool_of_subMembers (retains_members budget m).2).trans h
  | _ => cases h

/-- The first pass: the namespaces spend the budget, the direct tools stay. -/
theorem capNamespaces_spec (tools : List Value) (budget : ℕ) :
    expandedTools (capNamespaces budget tools).kept + (capNamespaces budget tools).remaining
        = budget + (directTools tools).length
      ∧ (capNamespaces budget tools).removed + expandedTools (capNamespaces budget tools).kept = expandedTools tools
      ∧ SubForest (capNamespaces budget tools).kept tools
      ∧ directTools (capNamespaces budget tools).kept = directTools tools := by
  induction tools generalizing budget with
  | nil => exact ⟨Nat.zero_add _, rfl, .nil, rfl⟩
  | cons tool rest ih =>
    unfold capNamespaces
    split
    · rename_i hnamespace
      obtain ⟨⟨hspent, hcounted⟩, hsub⟩ := retains_tool budget tool
      obtain ⟨hspent', hcounted', hsub', hdirect'⟩ := ih (retainTool budget tool).remaining
      obtain ⟨kept, hkept, hstays⟩ := retainTool_of_namespace hnamespace budget
      rw [expandedTools_singleton] at hcounted
      rw [directTools_cons_of_namespace hnamespace]
      -- an emptied namespace is still one, so that the direct tools are the same
      refine ⟨?_, ?_, hsub.append hsub', ?_⟩
      · dsimp only
        rw [expandedTools_append]
        omega
      · dsimp only
        rw [expandedTools_append, expandedTools]
        omega
      · dsimp only
        rw [hkept, List.singleton_append, directTools_cons_of_namespace hstays, hdirect']
    · rename_i hdirect
      have hdirect := Bool.eq_false_iff.mpr hdirect
      obtain ⟨hspent, hcounted, hsub, hdirect'⟩ := ih budget
      rw [directTools_cons_of_direct hdirect]
      refine ⟨?_, ?_, .keep (.same tool) hsub, ?_⟩
      · dsimp only
        rw [expandedTools, List.length_cons, expandedTool_of_direct hdirect]
        omega
      · dsimp only
        rw [expandedTools, expandedTools, expandedTool_of_direct hdirect]
        omega
      · dsimp only
        rw [directTools_cons_of_direct hdirect, hdirect']

/-- The second pass keeps direct tools only, as many as the budget allows. -/
theorem keepDirect_spec (tools : List Value) (budget : ℕ) :
    expandedTools (keepDirect budget tools).kept ≤ budget
      ∧ (keepDirect budget tools).removed + expandedTools (keepDirect budget tools).kept
        = (directTools tools).length
      ∧ (keepDirect budget tools).kept.Sublist tools := by
  induction tools generalizing budget with
  | nil => exact ⟨Nat.zero_le _, rfl, List.Sublist.slnil⟩
  | cons tool rest ih =>
    unfold keepDirect
    split
    · rename_i hnamespace
      obtain ⟨hbound, hcounted, hsub⟩ := ih budget
      rw [directTools_cons_of_namespace hnamespace]
      exact ⟨hbound, hcounted, hsub.cons tool⟩
    · rename_i hdirect
      have hdirect := Bool.eq_false_iff.mpr hdirect
      unfold spendTool
      rw [directTools_cons_of_direct hdirect]
      split
      · rename_i hbudget
        obtain ⟨hbound, hcounted, hsub⟩ := ih (budget - 1)
        refine ⟨?_, ?_, hsub.cons_cons tool⟩
        · dsimp only
          rw [List.singleton_append, expandedTools, expandedTool_of_direct hdirect]
          omega
        · dsimp only
          rw [List.singleton_append, expandedTools, expandedTool_of_direct hdirect, List.length_cons]
          omega
      · obtain ⟨hbound, hcounted, hsub⟩ := ih budget
        refine ⟨hbound, ?_, hsub.cons tool⟩
        dsimp only
        rw [List.nil_append, List.length_cons]
        omega

theorem SubForest.of_sublist {kept first tools : List Value} (h : SubForest first tools)
    (hsub : kept.Sublist first) : SubForest kept tools := by
  induction tools generalizing first kept with
  | nil =>
    cases h
    rw [List.sublist_nil.mp hsub]
    exact .nil
  | cons tool rest ih =>
    cases h with
    | drop _ h => exact .drop tool (ih h hsub)
    | keep htool h =>
      cases hsub with
      | cons _ hsub => exact .drop tool (ih h hsub)
      | cons_cons _ hsub => exact .keep htool (ih h hsub)

/-- The cap holds: the count, the order, the direct tools and the number that is returned. -/
structure CapsTools (tools kept : List Value) (removed : ℕ) : Prop where
  bounded : expandedTools kept ≤ if hasWebSearch tools then 337 else 349
  sub : SubForest kept tools
  direct : (directTools tools).length ≤ (if hasWebSearch tools then 337 else 349) →
    directTools kept = directTools tools
  counted : removed + expandedTools kept = expandedTools tools

/-- What `cap_grok_expanded_tools` sends keeps the cap. -/
theorem capsTools (tools : List Value) :
    CapsTools tools (capGrokExpandedTools tools).1 (capGrokExpandedTools tools).2 := by
  have hlimit : (if hasWebSearch tools then 337 else 349) = grokMaxTools tools := rfl
  obtain ⟨hspent, hcounted, hsub, hdirect⟩ :=
    capNamespaces_spec tools (grokMaxTools tools - (directTools tools).length)
  unfold capGrokExpandedTools
  dsimp only
  split
  · rename_i hover
    obtain ⟨hbound', hcounted', hsub'⟩ := keepDirect_spec
      (capNamespaces (grokMaxTools tools - (directTools tools).length) tools).kept (grokMaxTools tools)
    have hdirects := length_directTools_le
      (capNamespaces (grokMaxTools tools - (directTools tools).length) tools).kept
    rw [hdirect] at hcounted' hdirects
    refine ⟨hlimit ▸ hbound', hsub.of_sublist hsub', fun hfits => ?_, ?_⟩
    · rw [hlimit] at hfits
      omega
    -- The namespaces have nothing left, so that the first pass keeps the direct tools alone.
    · dsimp only
      omega
  · rename_i hfits
    refine ⟨?_, hsub, fun _ => hdirect, hcounted⟩
    dsimp only
    rw [hlimit]
    omega

end CodexRouter
