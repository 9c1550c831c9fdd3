/-
# Model names in a rewritten stream

`SseRewriter` replaces every string that stands for the model by the public name, with
one walk over the data of a line.  The names of a request without a model are empty, and
the internal name that is put together from them is a slash: `modelWalk` says what the
walk does in general, and for strings that are no paths also there.
-/
import CodexRouter.Base.JsonLeaves
import CodexRouter.Routing
import CodexRouter.SseRewriter

namespace CodexRouter

open Text

/-- `RouteTable::rewrite_response_model`. -/
def rewriteResponseModel (value : Value) (selected : PoolRoute) : Value :=
  let internal := selected.pfx ++ "/" ++ selected.publicModel
  value.mapStrings fun text =>
    if text = internal || text = selected.upstreamModel || startsWith text (internal ++ "/") then selected.publicModel
    else text

/-- It is the walk of the rewriter. -/
theorem rewriteResponseModel_eq (value : Value) (selected : PoolRoute) :
    rewriteResponseModel value selected
      = (SseRewriter.new selected.pfx selected.publicModel selected.upstreamModel).rewriteModelValue value := rfl

/-- The rewriter of a request without a model, as `data_plane` builds it. -/
def unrouted : SseRewriter := .new "" "" ""

/-- What the walk would have to do: without a model the strings of a payload are only stripped of thought
blocks, and with one a string changes only if it stands for the model, and no such string is left. -/
structure WalksCleanly : Prop where
  withoutModel : ∀ payload, unrouted.rewritePayload payload = stripThinkTagsFromValue (codeFailure payload)
  changed : ∀ (poolPrefix publicModel upstreamModel : String) (payload : Value),
    payload.Rel (fun s t => t = s ∨ (SseRewriter.new poolPrefix publicModel upstreamModel).namesModel s = true)
      ((SseRewriter.new poolPrefix publicModel upstreamModel).rewriteModelValue payload)
  clean : ∀ poolPrefix publicModel upstreamModel payload,
    ∀ text ∈ ((SseRewriter.new poolPrefix publicModel upstreamModel).rewriteModelValue payload).strings,
      (SseRewriter.new poolPrefix publicModel upstreamModel).namesModel text = false

section

variable {poolPrefix publicModel upstreamModel text : String} {payload : Value}

/-- A string that stands for the model. -/
theorem namesModel_iff : (SseRewriter.new poolPrefix publicModel upstreamModel).namesModel text = true
    ↔ text = poolPrefix ++ "/" ++ publicModel ∨ text = upstreamModel
      ∨ startsWith text (poolPrefix ++ "/" ++ publicModel ++ "/") = true := by
  unfold SseRewriter.namesModel SseRewriter.new
  rw [Bool.or_eq_true, Bool.or_eq_true, decide_eq_true_eq, decide_eq_true_eq, or_assoc]

theorem length_le_of_startsWith {s p : String} (h : startsWith s p = true) : p.length ≤ s.length := by
  unfold startsWith at h
  have hpfx := (List.isPrefixOf_iff_prefix.mp h).length_le
  rwa [String.length_toList, String.length_toList] at hpfx

/-- The public name is shorter than the internal one. -/
theorem length_publicModel_lt : publicModel.length < (poolPrefix ++ "/" ++ publicModel).length := by
  rw [String.length_append, String.length_append]
  have hslash : "/".length = 1 := rfl
  omega

/-- The public name is not the internal one, nor a name below it. -/
theorem publicModel_not_internal : publicModel ≠ poolPrefix ++ "/" ++ publicModel
    ∧ startsWith publicModel (poolPrefix ++ "/" ++ publicModel ++ "/") = false := by
  have hlength := @length_publicModel_lt poolPrefix publicModel
  constructor
  · intro heq
    exact absurd (congrArg String.length heq) (Nat.ne_of_lt hlength)
  · rw [Bool.eq_false_iff]
    intro hstarts
    have hle := length_le_of_startsWith hstarts
    rw [String.length_append] at hle
    omega

/-- A string after the walk that stands for the model is the public name, which is the upstream one too. -/
theorem eq_of_namesModel_rewritten
    (h : text ∈ ((SseRewriter.new poolPrefix publicModel upstreamModel).rewriteModelValue payload).strings)
    (hnames : (SseRewriter.new poolPrefix publicModel upstreamModel).namesModel text = true) :
    text = publicModel ∧ publicModel = upstreamModel := by
  unfold SseRewriter.rewriteModelValue at h
  rw [Value.strings_mapStrings] at h
  obtain ⟨s, -, hs⟩ := List.mem_map.mp h
  split at hs
  · have hpublic : text = publicModel := hs.symm
    subst hpublic
    refine ⟨rfl, ?_⟩
    obtain ⟨hinternal, hbelow⟩ := @publicModel_not_internal poolPrefix text
    rcases namesModel_iff.mp hnames with heq | heq | hstarts
    · exact absurd heq hinternal
    · exact heq
    · rw [hbelow] at hstarts
      cases hstarts
  · rename_i hother
    rw [hs] at hother
    exact absurd hnames hother

/-- An added error code is the one string that a failure gets. -/
theorem mem_strings_codeFailure (h : text ∈ (codeFailure payload).strings) :
    text ∈ payload.strings ∨ text = "CR-UP-0014" := by
  have hcode : ∀ error : Value, text ∈ (withErrorCode error).strings → text ∈ error.strings ∨ text = "CR-UP-0014" := by
    intro error herror
    unfold withErrorCode at herror
    split at herror
    · exact .inl herror
    · rcases List.mem_append.mp (Value.strings_insert_subset _ _ _ herror) with hnew | hold
      · exact .inr (List.mem_singleton.mp hnew)
      · exact .inl hold
  unfold codeFailure at h
  split at h
  · split at h
    · rename_i members hresponse
      have hmembers := Value.strings_subset_of_get hresponse
      rcases List.mem_append.mp (Value.strings_insert_subset _ _ _ h) with hnew | hold
      · rcases List.mem_append.mp (Value.stringsEntries_insert_subset _ _ _ hnew) with herror | hold
        · rcases hcode _ herror with herror | heq
          · left
            cases hget : Members.get "error" members with
            | none =>
              rw [hget] at herror
              cases herror
            | some error =>
              rw [hget] at herror
              exact hmembers (Value.strings_subset_stringsEntries (Members.mem_of_get hget) herror)
          · exact .inr heq
        · exact .inl (hmembers hold)
      · exact .inl hold
    · rename_i members herror _
      rcases List.mem_append.mp (Value.strings_insert_subset _ _ _ h) with hnew | hold
      · exact (hcode _ hnew).imp_left fun hmem => Value.strings_subset_of_get herror hmem
      · exact .inl hold
    · exact .inl h
  · exact .inl h

/-- What the walk does: it changes only strings that stand for the model, which become the public name; a
string that is left to stand for the model is the public name of a model that is called the same upstream.
Without a model, and if no string is a slash or starts with two of them, it does nothing. -/
theorem modelWalk (poolPrefix publicModel upstreamModel : String) (payload : Value) :
    payload.Rel (fun s t => ((SseRewriter.new poolPrefix publicModel upstreamModel).namesModel s = false ∧ t = s)
        ∨ ((SseRewriter.new poolPrefix publicModel upstreamModel).namesModel s = true ∧ t = publicModel))
      ((SseRewriter.new poolPrefix publicModel upstreamModel).rewriteModelValue payload)
    ∧ (∀ text ∈ ((SseRewriter.new poolPrefix publicModel upstreamModel).rewriteModelValue payload).strings,
      (SseRewriter.new poolPrefix publicModel upstreamModel).namesModel text = true →
        text = publicModel ∧ publicModel = upstreamModel)
    ∧ ((∀ text ∈ payload.strings, text ≠ "/" ∧ startsWith text "//" = false) →
      unrouted.rewritePayload payload = stripThinkTagsFromValue (codeFailure payload)) := by
  refine ⟨Value.rel_mapStrings (fun s => ?_) payload, fun text => eq_of_namesModel_rewritten, fun hplain => ?_⟩
  · cases hnames : (SseRewriter.new poolPrefix publicModel upstreamModel).namesModel s with
    | false => exact .inl ⟨rfl, rfl⟩
    | true => exact .inr ⟨rfl, rfl⟩
  · have hwalk : unrouted.rewriteModelValue (codeFailure payload) = codeFailure payload := by
      apply Value.mapStrings_eq_self
      intro text htext
      split
      · rename_i hnames
        -- The only name that is left is the empty one, which stays empty.
        have hempty : text = "" := by
          rcases namesModel_iff.mp hnames with heq | heq | hstarts
          · rcases mem_strings_codeFailure htext with hmem | hcode
            · exact absurd heq (hplain text hmem).1
            · rw [hcode] at heq
              exact absurd heq (by decide)
          · exact heq
          · rcases mem_strings_codeFailure htext with hmem | hcode
            · have hnone := (hplain text hmem).2
              exact absurd hstarts (by simpa using hnone)
            · rw [hcode] at hstarts
              exact absurd hstarts (by decide)
        exact hempty.symm
      · rfl
    rw [SseRewriter.rewritePayload, hwalk]

/-- A payload that names no path. -/
theorem modelWalk_plain : unrouted.rewritePayload (deltaPayload "a/b")
    = stripThinkTagsFromValue (codeFailure (deltaPayload "a/b")) :=
  (modelWalk "" "" "" (deltaPayload "a/b")).2.2 (by decide)

/-- Without a model a slash is replaced by nothing; and a model that is called the same upstream keeps its
name. -/
theorem not_walksCleanly :
    (unrouted.rewritePayload (deltaPayload "/")).getStr "delta" = some ""
      ∧ (stripThinkTagsFromValue (codeFailure (deltaPayload "/"))).getStr "delta" = some "/"
      ∧ (SseRewriter.new "pool" "gpt" "gpt").rewriteModelValue (.string "gpt") = .string "gpt"
      ∧ ¬ WalksCleanly := by
  refine ⟨by decide +kernel, by decide +kernel, by decide, fun h => ?_⟩
  have hname := h.clean "pool" "gpt" "gpt" (.string "gpt") "gpt" (by decide)
  exact absurd hname (by decide)

end

end CodexRouter
