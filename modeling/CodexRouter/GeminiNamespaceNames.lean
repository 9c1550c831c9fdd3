/-
# Round trips of flattened namespaces

The leaves of a tree of tools are flattened one after the other.  A name is sent once
if there is an unused one at its turn; the map of the history is keyed by qualified
names, so that the call of a leaf is renamed to the last leaf with its qualified name.
`namespacesRoundTrip_iff` puts the two together.
-/
import CodexRouter.GeminiNamespaces

namespace CodexRouter.Gemini

open Text

/-! ## The tree and its leaves -/

section

variable {σ : Type} (leaf : String → σ → Value → σ)

/-- A leaf, collected. -/
def collectLeaf (ns : String) (leaves : List (String × Value)) (value : Value) :
    List (String × Value) :=
  leaves ++ [(ns, value)]

theorem foldl_collectLeaf (init : σ) (ns : String) (leaves : List (String × Value)) (value : Value) :
    leaf ns (leaves.foldl (fun s p => leaf p.1 s p.2) init) value
      = (collectLeaf ns leaves value).foldl (fun s p => leaf p.1 s p.2) init := by
  rw [collectLeaf, List.foldl_append]
  rfl

mutual

theorem walkTool_eq (init : σ) : (value : Value) → (ns : String) → (leaves : List (String × Value)) →
    walkTool leaf value ns (leaves.foldl (fun s p => leaf p.1 s p.2) init)
      = (walkTool collectLeaf value ns leaves).foldl (fun s p => leaf p.1 s p.2) init
  | .object object, ns, leaves => by
    rw [walkTool, walkTool]
    split
    · exact walkChildren_eq init object _ leaves
    · exact foldl_collectLeaf leaf init ns leaves _
  | .null, ns, leaves => foldl_collectLeaf leaf init ns leaves .null
  | .bool x, ns, leaves => foldl_collectLeaf leaf init ns leaves (.bool x)
  | .number x, ns, leaves => foldl_collectLeaf leaf init ns leaves (.number x)
  | .string x, ns, leaves => foldl_collectLeaf leaf init ns leaves (.string x)
  | .array x, ns, leaves => foldl_collectLeaf leaf init ns leaves (.array x)
termination_by structural value => value

theorem walkTools_eq (init : σ) : (values : List Value) → (ns : String) →
    (leaves : List (String × Value)) →
    walkTools leaf values ns (leaves.foldl (fun s p => leaf p.1 s p.2) init)
      = (walkTools collectLeaf values ns leaves).foldl (fun s p => leaf p.1 s p.2) init
  | [], _, _ => rfl
  | value :: values, ns, leaves => by
    rw [walkTools, walkTools, walkTool_eq init value, walkTools_eq init values]
termination_by structural values => values

theorem walkMember_eq (init : σ) : (member : String × Value) → (ns : String) →
    (leaves : List (String × Value)) →
    walkMember leaf member ns (leaves.foldl (fun s p => leaf p.1 s p.2) init)
      = (walkMember collectLeaf member ns leaves).foldl (fun s p => leaf p.1 s p.2) init
  | (_, .array values), ns, leaves => walkTools_eq init values ns leaves
  | (_, .object _), _, _ => rfl
  | (_, .null), _, _ => rfl
  | (_, .bool _), _, _ => rfl
  | (_, .number _), _, _ => rfl
  | (_, .string _), _, _ => rfl
termination_by structural member => member

theorem walkChildren_eq (init : σ) : (members : List (String × Value)) → (ns : String) →
    (leaves : List (String × Value)) →
    walkChildren leaf members ns (leaves.foldl (fun s p => leaf p.1 s p.2) init)
      = (walkChildren collectLeaf members ns leaves).foldl (fun s p => leaf p.1 s p.2) init
  | [], _, _ => rfl
  | member :: members, ns, leaves => by
    rw [walkChildren, walkChildren]
    split
    · exact walkMember_eq init member ns leaves
    · exact walkChildren_eq init members ns leaves
termination_by structural members => members

end

end

section

variable (digest : HexDigest)

/-- The leaves in a list, one after the other. -/
def runLeaves (leaves : List (String × Value)) : FlattenState :=
  leaves.foldl (fun state p => flattenGeminiTool digest p.1 state p.2) .empty

/-- The walk over the tree runs over its leaves. -/
theorem flattenGeminiToolValues_eq (tools : List Value) :
    flattenGeminiToolValues digest tools "" .empty = runLeaves digest (toolLeaves tools "") :=
  walkTools_eq (flattenGeminiTool digest) .empty tools "" []

end

/-! ## One leaf -/

/-- The name of a function that has one. -/
def functionName : Value → Option String
  | .object object =>
    if (toolType object = "function" ∨ toolType object = "custom")
        ∧ toolDeclaredName (.object object) ≠ "" then
      some (toolDeclaredName (.object object))
    else none
  | _ => none

/-- A function is sent under the name that was found. -/
theorem toolDeclaredName_sentTool (object : Members) (original : GeminiNamespaceTool)
    (sentName : String) : toolDeclaredName (.object (sentTool object original sentName)) = sentName := by
  have hget : (sentTool object original sentName).get "name" = some (.string sentName) := by
    rw [sentTool, modifyToolParameters]
    split <;>
      rw [Members.get_modify_ne (by decide), Members.get_remove_ne (by decide),
        Members.get_remove_ne (by decide), Members.get_modify_ne (by decide), Members.get_insert_self]
  rw [toolDeclaredName, Value.getStr, Value.get_object, hget]
  rfl

section

variable {digest : HexDigest}

theorem flattenGeminiTool_of_none {ns : String} {state : FlattenState} {value : Value}
    (h : functionName value = none) :
    flattenGeminiTool digest ns state value = { state with output := state.output ++ [value] } := by
  cases value with
  | object object =>
    rw [functionName] at h
    split at h
    · cases h
    · rename_i hno
      rw [flattenGeminiTool]
      dsimp only
      rw [if_pos]
      by_contra hneg
      refine hno ⟨?_, fun hempty => hneg (.inr hempty)⟩
      by_contra htype
      rw [not_or] at htype
      exact hneg (.inl htype)
  | _ => rfl

/-- What a function adds to the state. -/
theorem flattenGeminiTool_of_some (digest : HexDigest) (ns : String) (state : FlattenState) {n : String}
    {value : Value} (h : functionName value = some n) :
    let fullName := qualifyNamespaceToolName ns n
    let sent := flattenedGeminiToolName digest fullName state.used
    let original := originalTool ns n fullName
    ∃ tool, toolDeclaredName tool = sent
      ∧ flattenGeminiTool digest ns state value
        = { used := state.used ++ [sent]
            forward := (fullName, sent) :: state.forward
            restore := if original.ns = "" then state.restore else (sent, original) :: state.restore
            output := state.output ++ [tool] } := by
  cases value with
  | object object =>
    rw [functionName] at h
    split at h
    · rename_i hfunction
      cases h
      refine ⟨_, toolDeclaredName_sentTool object (originalTool ns (toolDeclaredName (.object object))
        (qualifyNamespaceToolName ns (toolDeclaredName (.object object)))) _, ?_⟩
      rw [flattenGeminiTool]
      dsimp only
      rw [if_neg]
      rintro (⟨hfun, hcustom⟩ | hempty)
      · exact hfunction.1.elim hfun hcustom
      · exact hfunction.2 hempty
    · cases h
  | _ => cases h

/-! ## The run over the leaves -/

theorem runLeaves_append (leaves : List (String × Value)) (p : String × Value) :
    runLeaves digest (leaves ++ [p]) = flattenGeminiTool digest p.1 (runLeaves digest leaves) p.2 := by
  rw [runLeaves, List.foldl_append]
  rfl

/-- The leaf at the position is a function, and this is the name found at its turn. -/
def SentAs (digest : HexDigest) (leaves : List (String × Value)) (i : ℕ) (ns n sent : String) : Prop :=
  ∃ value, leaves[i]? = some (ns, value) ∧ functionName value = some n
    ∧ sent = flattenedGeminiToolName digest (qualifyNamespaceToolName ns n)
      (runLeaves digest (leaves.take i)).used

theorem sentAs_append {leaves : List (String × Value)} {p : String × Value} {i : ℕ}
    {ns n sent : String} :
    SentAs digest (leaves ++ [p]) i ns n sent ↔ SentAs digest leaves i ns n sent
      ∨ i = leaves.length ∧ p.1 = ns ∧ functionName p.2 = some n
        ∧ sent = flattenedGeminiToolName digest (qualifyNamespaceToolName ns n)
          (runLeaves digest leaves).used := by
  rcases Nat.lt_trichotomy i leaves.length with hlt | rfl | hgt
  · rw [SentAs, SentAs, List.getElem?_append_left hlt, List.take_append_of_le_length hlt.le]
    refine ⟨.inl, fun h => h.resolve_right fun h => ?_⟩
    omega
  · rw [SentAs, SentAs, List.getElem?_concat_length, List.take_append_of_le_length (Nat.le_refl _),
      List.take_length, List.getElem?_eq_none (Nat.le_refl _)]
    constructor
    · rintro ⟨value, heq, hname, hsent⟩
      cases heq
      exact .inr ⟨rfl, rfl, hname, hsent⟩
    · rintro (⟨value, heq, -⟩ | ⟨-, rfl, hname, hsent⟩)
      · cases heq
      · exact ⟨p.2, rfl, hname, hsent⟩
  · rw [SentAs, SentAs, List.getElem?_eq_none (by rw [List.length_append]; exact hgt),
      List.getElem?_eq_none hgt.le]
    constructor
    · rintro ⟨value, heq, -⟩
      cases heq
    · rintro (⟨value, heq, -⟩ | ⟨heq, -⟩)
      · cases heq
      · omega

theorem SentAs.lt {leaves : List (String × Value)} {i : ℕ} {ns n sent : String}
    (h : SentAs digest leaves i ns n sent) : i < leaves.length := by
  obtain ⟨value, hvalue, -⟩ := h
  exact (List.getElem?_eq_some_iff.mp hvalue).1

/-- The used names are the names sent so far. -/
theorem mem_used_iff (leaves : List (String × Value)) (s : String) :
    s ∈ (runLeaves digest leaves).used ↔ ∃ i ns n, SentAs digest leaves i ns n s := by
  induction leaves using List.reverseRecOn with
  | nil =>
    constructor
    · intro h
      cases h
    · rintro ⟨i, ns, n, value, h, -⟩
      cases h
  | append_singleton leaves p ih =>
    rw [runLeaves_append]
    simp only [sentAs_append, exists_or, ← ih]
    cases hname : functionName p.2 with
    | none =>
      rw [flattenGeminiTool_of_none hname]
      simp
    | some n =>
      obtain ⟨tool, -, hstate⟩ := flattenGeminiTool_of_some digest p.1
        (runLeaves digest leaves) hname
      rw [hstate, List.mem_append, List.mem_singleton]
      refine or_congr_right ⟨fun h => ⟨_, p.1, n, rfl, rfl, rfl, h⟩, ?_⟩
      rintro ⟨i, ns, n', -, rfl, heq, h⟩
      cases heq
      exact h

/-- The tools stand in the order of the leaves. -/
theorem output_runLeaves (leaves : List (String × Value)) :
    (runLeaves digest leaves).output.length = leaves.length
      ∧ ∀ i ns n sent, SentAs digest leaves i ns n sent →
        (runLeaves digest leaves).output[i]?.map toolDeclaredName = some sent := by
  induction leaves using List.reverseRecOn with
  | nil =>
    refine ⟨rfl, ?_⟩
    rintro i ns n sent ⟨value, h, -⟩
    cases h
  | append_singleton leaves p ih =>
    obtain ⟨hlength, hsent⟩ := ih
    have hold : ∀ tool i ns n sent, SentAs digest leaves i ns n sent →
        ((runLeaves digest leaves).output ++ [tool])[i]?.map toolDeclaredName = some sent := by
      intro tool i ns n sent h
      rw [List.getElem?_append_left (by rw [hlength]; exact h.lt)]
      exact hsent i ns n sent h
    rw [runLeaves_append]
    cases hname : functionName p.2 with
    | none =>
      rw [flattenGeminiTool_of_none hname]
      refine ⟨by simp [hlength], fun i ns n sent h => ?_⟩
      rcases sentAs_append.mp h with h | ⟨-, -, h, -⟩
      · exact hold _ i ns n sent h
      · rw [hname] at h
        cases h
    | some n =>
      obtain ⟨tool, htool, hstate⟩ := flattenGeminiTool_of_some digest p.1
        (runLeaves digest leaves) hname
      rw [hstate]
      refine ⟨by rw [List.length_append, List.length_append, hlength]; rfl, fun i ns n' sent h => ?_⟩
      rcases sentAs_append.mp h with h | ⟨hi, hns, h, hsent⟩
      · exact hold _ i ns n' sent h
      · rw [hname, Option.some.injEq] at h
        rw [hi, ← hlength, List.getElem?_concat_length, Option.map_some, htool, hsent, ← h, ← hns]

/-- The map of the history holds the last leaf with a qualified name. -/
theorem lookup_forward_iff (digest : HexDigest) (leaves : List (String × Value)) (fullName s : String) :
    (runLeaves digest leaves).forward.lookup fullName = some s ↔ ∃ i ns n,
      SentAs digest leaves i ns n s ∧ qualifyNamespaceToolName ns n = fullName
        ∧ ∀ j ns' n' s', SentAs digest leaves j ns' n' s' → i < j →
          qualifyNamespaceToolName ns' n' ≠ fullName := by
  induction leaves using List.reverseRecOn generalizing s with
  | nil =>
    constructor
    · intro h
      cases h
    · rintro ⟨i, ns, n, ⟨value, h, -⟩, -⟩
      cases h
  | append_singleton leaves p ih =>
    rw [runLeaves_append]
    cases hname : functionName p.2 with
    | none =>
      have hsame : ∀ i ns n s, SentAs digest (leaves ++ [p]) i ns n s ↔ SentAs digest leaves i ns n s := by
        intro i ns n s
        rw [sentAs_append, hname]
        simp
      rw [flattenGeminiTool_of_none hname]
      simp only [hsame]
      exact ih s
    | some n =>
      obtain ⟨tool, -, hstate⟩ := flattenGeminiTool_of_some digest p.1
        (runLeaves digest leaves) hname
      have hnew : SentAs digest (leaves ++ [p]) leaves.length p.1 n
          (flattenedGeminiToolName digest (qualifyNamespaceToolName p.1 n)
            (runLeaves digest leaves).used) :=
        sentAs_append.mpr (.inr ⟨rfl, rfl, hname, rfl⟩)
      rw [hstate]
      dsimp only
      rw [List.lookup_cons]
      by_cases hfull : fullName = qualifyNamespaceToolName p.1 n
      · -- the new leaf is the last one
        rw [beq_iff_eq.mpr hfull]
        dsimp only
        rw [Option.some.injEq]
        constructor
        · rintro rfl
          refine ⟨leaves.length, p.1, n, hnew, hfull.symm, fun j ns' n' s' hj hlt => ?_⟩
          have hbound := hj.lt
          rw [List.length_append, List.length_singleton] at hbound
          omega
        · rintro ⟨i, ns, n', hi, -, hlast⟩
          rcases sentAs_append.mp hi with hi | ⟨-, hns, hn, hs⟩
          · exact absurd hfull.symm (hlast _ _ _ _ hnew hi.lt)
          · rw [hname, Option.some.injEq] at hn
            rw [hs, ← hn, ← hns]
      · rw [beq_eq_false_iff_ne.mpr hfull]
        dsimp only
        rw [ih]
        constructor
        · rintro ⟨i, ns, n', hi, hname', hlast⟩
          refine ⟨i, ns, n', sentAs_append.mpr (.inl hi), hname', fun j ns' m s' hj hlt => ?_⟩
          rcases sentAs_append.mp hj with hj | ⟨-, hns, hn, -⟩
          · exact hlast j ns' m s' hj hlt
          · rw [hname, Option.some.injEq] at hn
            rw [← hns, ← hn]
            exact Ne.symm hfull
        · rintro ⟨i, ns, n', hi, hname', hlast⟩
          rcases sentAs_append.mp hi with hi | ⟨-, hns, hn, -⟩
          · exact ⟨i, ns, n', hi, hname', fun j ns' m s' hj =>
              hlast j ns' m s' (sentAs_append.mpr (.inl hj))⟩
          · rw [hname, Option.some.injEq] at hn
            rw [← hns, ← hn] at hname'
            exact absurd hname'.symm hfull

/-- The map of the history holds something for the qualified name of a leaf, found at
this leaf or later. -/
theorem exists_lookup_forward {leaves : List (String × Value)} {j : ℕ} {ns n s : String}
    (hj : SentAs digest leaves j ns n s) : ∃ k ns' n' s', SentAs digest leaves k ns' n' s' ∧ j ≤ k
      ∧ (runLeaves digest leaves).forward.lookup (qualifyNamespaceToolName ns n) = some s' := by
  have hlast : ∀ m j ns n s, SentAs digest leaves j ns n s → leaves.length - j = m →
      ∃ k ns' n' s', SentAs digest leaves k ns' n' s' ∧ j ≤ k
        ∧ (runLeaves digest leaves).forward.lookup (qualifyNamespaceToolName ns n) = some s' := by
    intro m
    induction m using Nat.strong_induction_on with
    | _ m ih =>
      intro j ns n s hj hm
      by_cases hlater : ∃ k ns' n' s', SentAs digest leaves k ns' n' s' ∧ j < k
          ∧ qualifyNamespaceToolName ns' n' = qualifyNamespaceToolName ns n
      · obtain ⟨k, ns', n', s', hk, hlt, hsame⟩ := hlater
        have hbound := hk.lt
        obtain ⟨k', ns'', n'', s'', hk', hle, hlookup⟩ := ih (leaves.length - k) (by omega) k ns' n' s' hk rfl
        exact ⟨k', ns'', n'', s'', hk', by omega, hsame ▸ hlookup⟩
      · refine ⟨j, ns, n, s, hj, Nat.le_refl j, (lookup_forward_iff digest leaves _ _).mpr
          ⟨j, ns, n, hj, rfl, fun k ns' n' s' hk hlt hsame => hlater ⟨k, ns', n', s', hk, hlt, hsame⟩⟩⟩
  exact hlast _ j ns n s hj rfl

/-- The map of the response holds the last leaf with a sent name. -/
theorem lookup_restore {leaves : List (String × Value)} {i : ℕ} {ns n s : String}
    (hi : SentAs digest leaves i ns n s)
    (hlast : ∀ j ns' n', SentAs digest leaves j ns' n' s → j ≤ i)
    (horiginal : (originalTool ns n (qualifyNamespaceToolName ns n)).ns ≠ "") :
    (runLeaves digest leaves).restore.lookup s
      = some (originalTool ns n (qualifyNamespaceToolName ns n)) := by
  induction leaves using List.reverseRecOn with
  | nil =>
    obtain ⟨value, h, -⟩ := hi
    cases h
  | append_singleton leaves p ih =>
    have hold : SentAs digest leaves i ns n s → (runLeaves digest leaves).restore.lookup s
        = some (originalTool ns n (qualifyNamespaceToolName ns n)) := fun h =>
      ih h fun j ns' n' hj => hlast j ns' n' (sentAs_append.mpr (.inl hj))
    rw [runLeaves_append]
    cases hname : functionName p.2 with
    | none =>
      rw [flattenGeminiTool_of_none hname]
      refine hold ((sentAs_append.mp hi).resolve_right fun h => ?_)
      rw [hname] at h
      cases h.2.2.1
    | some n' =>
      obtain ⟨tool, -, hstate⟩ := flattenGeminiTool_of_some digest p.1
        (runLeaves digest leaves) hname
      rw [hstate]
      dsimp only
      rcases sentAs_append.mp hi with hi | ⟨-, hns, hn, hs⟩
      · split
        · exact hold hi
        · -- the new leaf has another name
          have hne : s ≠ flattenedGeminiToolName digest (qualifyNamespaceToolName p.1 n')
              (runLeaves digest leaves).used := by
            intro heq
            have hle := hlast leaves.length p.1 n' (sentAs_append.mpr (.inr ⟨rfl, rfl, hname, heq⟩))
            have hlt := hi.lt
            omega
          rw [List.lookup_cons, beq_eq_false_iff_ne.mpr hne]
          exact hold hi
      · rw [hname, Option.some.injEq] at hn
        rw [hn, hns, if_neg horiginal, List.lookup_cons, beq_iff_eq.mpr hs]

end

/-! ## The name found for a leaf -/

theorem firstUnused_free_iff {candidates : List String} {last : String} {used : List String}
    (hlast : last ∈ candidates) (hlength : ∀ c ∈ candidates, c.length ≤ openaiCompatToolNameMax) :
    (firstUnused candidates last used ∉ used
        ∧ (firstUnused candidates last used).length ≤ openaiCompatToolNameMax)
      ↔ ∃ c ∈ candidates, c ∉ used := by
  rcases firstUnused_spec candidates last used with
    ⟨c, hc, hunused, heq⟩ | ⟨hall, heq⟩
  · rw [heq]
    exact iff_of_true ⟨hunused, hlength c hc⟩ ⟨c, hc, hunused⟩
  · rw [heq]
    exact iff_of_false (fun h => h.1 (hall last hlast)) fun ⟨c, hc, hunused⟩ => hunused (hall c hc)

/-- The name is new and short exactly if there is such a name among the candidates. -/
theorem flattenedGeminiToolName_iff (digest : HexDigest) (fullName : String) (used : List String) :
    (flattenedGeminiToolName digest fullName used ∉ used
        ∧ (flattenedGeminiToolName digest fullName used).length ≤ openaiCompatToolNameMax)
      ↔ NameFree digest fullName used := by
  rw [flattenedGeminiToolName, NameFree, nameCandidates]
  by_cases hshort : fullName.length ≤ openaiCompatToolNameMax
  · rw [if_pos hshort, List.exists_mem_cons_iff]
    by_cases hused : fullName ∈ used
    · rw [if_neg (fun h => h.2 hused), if_neg (by omega), shortenToCharLen, if_neg (by decide),
        if_neg (fun h => h.2 hused)]
      rcases firstUnused_spec (charLenCandidates digest fullName openaiCompatToolNameMax)
        (suffixedName digest openaiCompatToolNameMax fullName 64) used with
        ⟨c, hc, hunused, heq⟩ | ⟨hall, heq⟩
      · rw [heq]
        exact iff_of_true ⟨hunused, length_of_mem_charLenCandidates hc⟩ (.inr ⟨c, hc, hunused⟩)
      · -- the last candidate is too long
        rw [heq, length_suffixedName_last]
        refine iff_of_false (fun h => absurd h.2 (by decide)) ?_
        rintro (h | ⟨c, hc, hunused⟩)
        · exact h hused
        · exact hunused (hall c hc)
    · rw [if_pos ⟨hshort, hused⟩]
      exact iff_of_true ⟨hused, hshort⟩ (.inl hused)
  · rw [if_neg hshort, if_neg (fun h => hshort h.1), if_pos (by omega),
      shortenOpenaiCompatToolNameUnique]
    split
    · rename_i hremapped
      simp only [List.mem_singleton, exists_eq_left]
      exact and_iff_left hremapped
    · refine firstUnused_free_iff ?_ fun c hc => length_of_mem_uniqueCandidates hc
      rw [uniqueCandidates]
      exact List.mem_map.mpr ⟨27, by decide, rfl⟩

/-! ## Round trips -/

/-- The leaf at the position is a function with this namespace and this name. -/
def LeafAt (tools : List Value) (i : ℕ) (ns n : String) : Prop :=
  ∃ value, (toolLeaves tools "")[i]? = some (ns, value) ∧ functionName value = some n

/-- The namespace is not empty and the name does not start with it. -/
def Covered (ns n : String) : Prop := ns ≠ "" ∧ startsWith n ns = false

/-- The name that the tool at a position of the body is sent under. -/
def sentNameAt (body : Members) (i : ℕ) : Option String :=
  (((body.get "tools").bind Value.asArray).bind (·[i]?)).map toolDeclaredName

/-- The item is a call of the tool. -/
def IsCall (item : Members) (ns n : String) : Prop :=
  ((item.get "type").bind Value.asStr = some "function_call"
      ∨ (item.get "type").bind Value.asStr = some "custom_tool_call")
    ∧ (item.get "name").bind Value.asStr = some n ∧ (item.get "namespace").bind Value.asStr = some ns

/-- The tools make the round trip: in every request with these tools the sent names are
distinct and short, the calls of the history have them, and they are restored. -/
structure NamespacesRoundTrip (digest : HexDigest) (tools : List Value) : Prop where
  distinct : ∀ body : Members, body.get "tools" = some (.array tools) → ∀ i j ns n ns' n',
    LeafAt tools i ns n → LeafAt tools j ns' n' → i ≠ j →
    sentNameAt (flattenGeminiNamespaceTools digest body).1 i
      ≠ sentNameAt (flattenGeminiNamespaceTools digest body).1 j
  short : ∀ body : Members, body.get "tools" = some (.array tools) → ∀ i ns n, LeafAt tools i ns n →
    ∃ sent, sentNameAt (flattenGeminiNamespaceTools digest body).1 i = some sent
      ∧ sent.length ≤ openaiCompatToolNameMax
  history : ∀ body : Members, body.get "tools" = some (.array tools) → ∀ i ns n, LeafAt tools i ns n →
    Covered ns n → ∀ key ∈ ["input", "messages"], ∀ (items : List Value) (k : ℕ) (item : Members),
    body.get key = some (.array items) → items[k]? = some (.object item) → IsCall item ns n →
    ∃ (items' : List Value) (item' : Members), (flattenGeminiNamespaceTools digest body).1.get key = some (.array items')
      ∧ items'[k]? = some (.object item')
      ∧ (item'.get "name").bind Value.asStr
        = sentNameAt (flattenGeminiNamespaceTools digest body).1 i
      ∧ item'.get "namespace" = none
  restore : ∀ body : Members, body.get "tools" = some (.array tools) → ∀ i ns n, LeafAt tools i ns n →
    Covered ns n → ∀ toolNameRestore sent,
    sentNameAt (flattenGeminiNamespaceTools digest body).1 i = some sent →
    restoreGeminiNamespaceTool (flattenGeminiNamespaceTools digest body).2 toolNameRestore sent
      = some ⟨ns, n⟩

section

variable {digest : HexDigest} {tools : List Value}

theorem LeafAt.sentAs {i : ℕ} {ns n : String} (h : LeafAt tools i ns n) (digest : HexDigest) :
    SentAs digest (toolLeaves tools "") i ns n
      (flattenedGeminiToolName digest (qualifyNamespaceToolName ns n)
        (runLeaves digest ((toolLeaves tools "").take i)).used) := by
  obtain ⟨value, hvalue, hname⟩ := h
  exact ⟨value, hvalue, hname, rfl⟩

theorem SentAs.leafAt {i : ℕ} {ns n s : String} (h : SentAs digest (toolLeaves tools "") i ns n s) :
    LeafAt tools i ns n := by
  obtain ⟨value, hvalue, hname, -⟩ := h
  exact ⟨value, hvalue, hname⟩

/-- A leaf has one name. -/
theorem SentAs.unique {leaves : List (String × Value)} {i : ℕ} {ns n s ns' n' s' : String}
    (h : SentAs digest leaves i ns n s) (h' : SentAs digest leaves i ns' n' s') :
    ns = ns' ∧ n = n' ∧ s = s' := by
  obtain ⟨value, hvalue, hname, hs⟩ := h
  obtain ⟨value', hvalue', hname', hs'⟩ := h'
  rw [hvalue, Option.some.injEq, Prod.mk.injEq] at hvalue'
  obtain ⟨rfl, rfl⟩ := hvalue'
  rw [hname, Option.some.injEq] at hname'
  subst hname'
  exact ⟨rfl, rfl, hs.trans hs'.symm⟩

/-- What a leaf of the front is sent as, the leaf is sent as. -/
theorem sentAs_take {leaves : List (String × Value)} {i j : ℕ} {ns n s : String}
    (h : SentAs digest (leaves.take i) j ns n s) : j < i ∧ SentAs digest leaves j ns n s := by
  have hlt := h.lt
  rw [List.length_take] at hlt
  obtain ⟨value, hvalue, hname, hs⟩ := h
  rw [List.getElem?_take_of_lt (by omega)] at hvalue
  rw [List.take_take, Nat.min_eq_left (by omega)] at hs
  exact ⟨by omega, value, hvalue, hname, hs⟩

theorem flattenGeminiNamespaceTools_tools {body : Members}
    (hbody : body.get "tools" = some (.array tools)) :
    (flattenGeminiNamespaceTools digest body).1.get "tools"
        = some (.array (runLeaves digest (toolLeaves tools "")).output)
      ∧ (flattenGeminiNamespaceTools digest body).2
        = (runLeaves digest (toolLeaves tools "")).restore := by
  rw [flattenGeminiNamespaceTools, hbody]
  dsimp only
  rw [flattenGeminiToolValues_eq, flattenGeminiHistoryToolNames, List.foldl_cons, List.foldl_cons,
    List.foldl_nil, Members.get_modify_ne (by decide), Members.get_modify_ne (by decide),
    Members.get_insert_self]
  exact ⟨rfl, rfl⟩

/-- The items of the history, each under its sent name. -/
theorem flattenGeminiNamespaceTools_history {body : Members}
    (hbody : body.get "tools" = some (.array tools)) {key : String} (hkey : key ∈ ["input", "messages"])
    {items : List Value} (hitems : body.get key = some (.array items)) :
    (flattenGeminiNamespaceTools digest body).1.get key = some (.array (items.map fun
      | .object item =>
        .object (flattenGeminiHistoryItem (runLeaves digest (toolLeaves tools "")).forward item)
      | v => v)) := by
  rw [flattenGeminiNamespaceTools, hbody]
  dsimp only
  rw [flattenGeminiToolValues_eq, flattenGeminiHistoryToolNames, List.foldl_cons, List.foldl_cons,
    List.foldl_nil]
  rw [List.mem_cons, List.mem_singleton] at hkey
  rcases hkey with rfl | rfl
  · rw [Members.get_modify_ne (by decide), Members.get_modify_self, Members.get_insert_ne (by decide),
      Members.get_remove_ne (by decide), hitems]
    rfl
  · rw [Members.get_modify_self, Members.get_modify_ne (by decide), Members.get_insert_ne (by decide),
      Members.get_remove_ne (by decide), hitems]
    rfl

theorem sentNameAt_of_sentAs {body : Members} (hbody : body.get "tools" = some (.array tools)) {i : ℕ}
    {ns n s : String} (h : SentAs digest (toolLeaves tools "") i ns n s) :
    sentNameAt (flattenGeminiNamespaceTools digest body).1 i = some s := by
  rw [sentNameAt, (flattenGeminiNamespaceTools_tools hbody).1]
  exact (output_runLeaves (toolLeaves tools "")).2 i ns n s h

/-- A call is renamed to what the map holds for its qualified name. -/
theorem flattenGeminiHistoryItem_call {forward : List (String × String)} {item : Members}
    {ns n s : String} (hcall : IsCall item ns n)
    (hlookup : forward.lookup (qualifyNamespaceToolName ns n) = some s) :
    ((flattenGeminiHistoryItem forward item).get "name").bind Value.asStr = some s
      ∧ (flattenGeminiHistoryItem forward item).get "namespace" = none := by
  obtain ⟨htype, hname, hns⟩ := hcall
  have hkind : ((item.get "type").bind Value.asStr).getD "" = "function_call"
      ∨ ((item.get "type").bind Value.asStr).getD "" = "custom_tool_call" := by
    rcases htype with h | h
    · exact .inl (by rw [h]; rfl)
    · exact .inr (by rw [h]; rfl)
  have hrename : renameCall forward item
      = ((if (item.get "name").bind Value.asStr ≠ some s then item.insert "name" (.string s)
        else item).remove "namespace") := by
    rw [renameCall]
    dsimp only
    rw [if_pos hkind, hname, hns, Option.getD_some, Option.getD_some, hlookup]
  rw [flattenGeminiHistoryItem, Members.get_modify_ne (by decide), Members.get_modify_ne (by decide),
    Members.get_modify_ne (by decide), Members.get_modify_ne (by decide), hrename,
    Members.get_remove_ne (by decide), Members.get_remove_self]
  refine ⟨?_, rfl⟩
  split
  · rw [Members.get_insert_self]
    rfl
  · rename_i hsame
    rwa [ne_eq, not_not] at hsame

theorem originalTool_of_covered {ns n : String} (h : Covered ns n) (fullName : String) :
    originalTool ns n fullName = ⟨ns, n⟩ := by
  have hno : startsWith n (ns ++ "__") = false := by
    cases hstart : startsWith n (ns ++ "__") with
    | false => rfl
    | true =>
      have hns := h.2
      rw [startsWith, List.isPrefixOf_iff_prefix, String.toList_append] at hstart
      rw [startsWith, Bool.eq_false_iff, ne_eq, List.isPrefixOf_iff_prefix] at hns
      exact absurd ((List.prefix_append _ _).trans hstart) hns
  rw [originalTool, if_neg h.1, stripPrefix, hno]
  rfl

/-- At its turn there is a name for every function. -/
def NamesFree (digest : HexDigest) (tools : List Value) : Prop :=
  ∀ i ns n, LeafAt tools i ns n → NameFree digest (qualifyNamespaceToolName ns n)
    (runLeaves digest ((toolLeaves tools "").take i)).used

/-- No later function has the qualified name of a covered one. -/
def LastOfItsName (tools : List Value) : Prop :=
  ∀ i j ns n ns' n', LeafAt tools i ns n → Covered ns n → LeafAt tools j ns' n' → i < j →
    qualifyNamespaceToolName ns' n' ≠ qualifyNamespaceToolName ns n

/-- The names are distinct and short exactly if there was one for each function. -/
theorem namesFree_iff :
    NamesFree digest tools ↔ (∀ i j ns n ns' n' s s', SentAs digest (toolLeaves tools "") i ns n s →
        SentAs digest (toolLeaves tools "") j ns' n' s' → i ≠ j → s ≠ s')
      ∧ ∀ i ns n s, SentAs digest (toolLeaves tools "") i ns n s → s.length ≤ openaiCompatToolNameMax := by
  constructor
  · intro h
    have hfree : ∀ i ns n s, SentAs digest (toolLeaves tools "") i ns n s →
        s ∉ (runLeaves digest ((toolLeaves tools "").take i)).used
          ∧ s.length ≤ openaiCompatToolNameMax := by
      intro i ns n s hs
      have hname := h i ns n hs.leafAt
      rw [← flattenedGeminiToolName_iff, ← (hs.unique (hs.leafAt.sentAs digest)).2.2] at hname
      exact hname
    have hlt : ∀ i j ns n ns' n' s s', SentAs digest (toolLeaves tools "") i ns n s →
        SentAs digest (toolLeaves tools "") j ns' n' s' → i < j → s ≠ s' := by
      rintro i j ns n ns' n' s s' hi hj hlt rfl
      refine (hfree j ns' n' s hj).1 ((mem_used_iff _ _).mpr ⟨i, ns, n, ?_⟩)
      obtain ⟨value, hvalue, hname, hs⟩ := hi
      refine ⟨value, by rw [List.getElem?_take_of_lt hlt, hvalue], hname, ?_⟩
      rw [List.take_take, Nat.min_eq_left hlt.le]
      exact hs
    refine ⟨fun i j ns n ns' n' s s' hi hj hne => ?_, fun i ns n s hs => (hfree i ns n s hs).2⟩
    rcases Nat.lt_or_gt_of_ne hne with h | h
    · exact hlt i j ns n ns' n' s s' hi hj h
    · exact (hlt j i ns' n' ns n s' s hj hi h).symm
  · rintro ⟨hdistinct, hshort⟩ i ns n hleaf
    rw [← flattenedGeminiToolName_iff]
    refine ⟨fun hused => ?_, hshort i ns n _ (hleaf.sentAs digest)⟩
    obtain ⟨j, ns', n', hj⟩ := (mem_used_iff _ _).mp hused
    obtain ⟨hlt, hj⟩ := sentAs_take hj
    exact hdistinct j i ns' n' ns n _ _ hj (hleaf.sentAs digest) (by omega) rfl

/-- The tools make the round trip exactly if there is a name for every function at its
turn and no later function has the qualified name of a covered one. -/
theorem namespacesRoundTrip_iff (digest : HexDigest) (tools : List Value) :
    NamespacesRoundTrip digest tools ↔ NamesFree digest tools ∧ LastOfItsName tools := by
  constructor
  · intro h
    have hplain : Members.get "tools" [("tools", Value.array tools)] = some (.array tools) := rfl
    have hnames : NamesFree digest tools := by
      rw [namesFree_iff]
      refine ⟨?_, ?_⟩
      · rintro i j ns n ns' n' s s' hi hj hne rfl
        refine h.distinct _ hplain i j ns n ns' n' hi.leafAt hj.leafAt hne ?_
        rw [sentNameAt_of_sentAs hplain hi, sentNameAt_of_sentAs hplain hj]
      · intro i ns n s hs
        obtain ⟨sent, hsent, hlength⟩ := h.short _ hplain i ns n hs.leafAt
        rw [sentNameAt_of_sentAs hplain hs, Option.some.injEq] at hsent
        exact hsent ▸ hlength
    refine ⟨hnames, fun i j ns n ns' n' hi hcovered hj hlt hsame => ?_⟩
    obtain ⟨hdistinct, -⟩ := namesFree_iff.mp hnames
    -- the call of the leaf is renamed to the last leaf with its qualified name
    obtain ⟨k, ns'', n'', s, hk, hlast, hlookup⟩ := exists_lookup_forward (hj.sentAs digest)
    rw [hsame] at hlookup
    let item : Members := [("name", .string n), ("namespace", .string ns), ("type", .string "function_call")]
    have hcall : IsCall item ns n := ⟨.inl rfl, rfl, rfl⟩
    let body : Members := [("input", .array [.object item]), ("tools", .array tools)]
    have hbody : body.get "tools" = some (.array tools) := rfl
    have hinput : body.get "input" = some (.array [.object item]) := rfl
    obtain ⟨items', item', hitems, hitem, hname, -⟩ := h.history body hbody i ns n hi hcovered "input"
      (by decide) [.object item] 0 item hinput rfl hcall
    rw [flattenGeminiNamespaceTools_history hbody (by decide) hinput, Option.some.injEq,
      Value.array.injEq] at hitems
    rw [← hitems, List.map_singleton, List.getElem?_cons_zero, Option.some.injEq,
      Value.object.injEq] at hitem
    rw [← hitem, (flattenGeminiHistoryItem_call hcall hlookup).1, sentNameAt_of_sentAs hbody (hi.sentAs digest),
      Option.some.injEq] at hname
    exact hdistinct k i _ _ _ _ _ _ hk (hi.sentAs digest) (by omega) hname
  · rintro ⟨hnames, hlast⟩
    obtain ⟨hdistinct, hshort⟩ := namesFree_iff.mp hnames
    constructor
    · intro body hbody i j ns n ns' n' hi hj hne heq
      rw [sentNameAt_of_sentAs hbody (hi.sentAs digest), sentNameAt_of_sentAs hbody (hj.sentAs digest),
        Option.some.injEq] at heq
      exact hdistinct _ _ _ _ _ _ _ _ (hi.sentAs digest) (hj.sentAs digest) hne heq
    · intro body hbody i ns n hi
      exact ⟨_, sentNameAt_of_sentAs hbody (hi.sentAs digest), hshort _ _ _ _ (hi.sentAs digest)⟩
    · intro body hbody i ns n hi hcovered key hkey items k item hitems hitem hcall
      have hlookup := (lookup_forward_iff digest (toolLeaves tools "") _ _).mpr
        ⟨i, ns, n, (hi.sentAs digest), rfl, fun j ns' n' s' hj hlt => hlast i j ns n ns' n' hi hcovered hj.leafAt hlt⟩
      obtain ⟨hname, hnamespace⟩ := flattenGeminiHistoryItem_call hcall hlookup
      refine ⟨_, _, flattenGeminiNamespaceTools_history hbody hkey hitems, ?_, ?_, hnamespace⟩
      · rw [List.getElem?_map, hitem]
        rfl
      · rw [hname, sentNameAt_of_sentAs hbody (hi.sentAs digest)]
    · intro body hbody i ns n hi hcovered toolNameRestore sent hsent
      rw [sentNameAt_of_sentAs hbody (hi.sentAs digest), Option.some.injEq] at hsent
      have horiginal := originalTool_of_covered hcovered (qualifyNamespaceToolName ns n)
      have hrestore := lookup_restore (hi.sentAs digest) (fun j ns' n' hj => by
        by_contra hgt
        exact hdistinct _ _ _ _ _ _ _ _ (hi.sentAs digest) hj (by omega) rfl) (by rw [horiginal]; exact hcovered.1)
      rw [restoreGeminiNamespaceTool, (flattenGeminiNamespaceTools_tools hbody).2, ← hsent, hrestore,
        horiginal]
      rfl

end

/-! ## A collision -/

/-- A namespace with one function. -/
def namespaceTool (ns n : String) : Value :=
  .object [("name", .string ns),
    ("tools", .array [.object [("name", .string n), ("type", .string "function")]]),
    ("type", .string "namespace")]

/-- The digest of `a__b__c`, the one name that is digested below. -/
def collisionDigest : HexDigest :=
  ⟨fun _ => "8a954b2466114d75b4dbc574c37a4ded75b3dc981e506d3db77f3ff6af521cc4", fun _ => rfl⟩

/-- `b__c` in `a` and `c` in `a__b` have one qualified name, so that the call of the first
is renamed to the second. -/
theorem not_namespacesRoundTrip_of_collision :
    ¬ ∀ digest tools, NamespacesRoundTrip digest tools := by
  intro h
  let tools := [namespaceTool "a" "b__c", namespaceTool "a__b" "c"]
  let item : Members :=
    [("name", .string "b__c"), ("namespace", .string "a"), ("type", .string "function_call")]
  let body : Members := [("input", .array [.object item]), ("tools", .array tools)]
  obtain ⟨items', item', hitems, hitem, hname, -⟩ := (h collisionDigest tools).history body rfl 0 "a"
    "b__c" ⟨_, rfl, rfl⟩ ⟨by decide, by decide⟩ "input" (by decide) [.object item] 0 item rfl rfl
    ⟨.inl rfl, rfl, rfl⟩
  have hflat : (flattenGeminiNamespaceTools collisionDigest body).1.get "input"
      = some (.array [.object [("name", .string "a__b__c_8a954b24"),
        ("type", .string "function_call")]]) := by
    decide +kernel
  have hsent : sentNameAt (flattenGeminiNamespaceTools collisionDigest body).1 0 = some "a__b__c" := by
    decide +kernel
  rw [hflat, Option.some.injEq, Value.array.injEq] at hitems
  rw [← hitems, List.getElem?_cons_zero, Option.some.injEq, Value.object.injEq] at hitem
  rw [hsent, ← hitem] at hname
  revert hname
  decide +kernel

end CodexRouter.Gemini
