/-
# The ids of a retried stream

The events of a retry carry ids that the client does not know.  `apply_sse_rewrites` and
`rewrite_delta_event` put the known ids in their place, as a replacement of text in the
event, or in its printed data.  Only the strings that are an id should change
(`KeepsText`).  They do if the ids stand nowhere else (`keepsText_of_fits`); an id that is
a part of the answer's text is replaced there too.
-/
import CodexRouter.Base.JsonText
import CodexRouter.LeakedTools
import CodexRouter.ReconciledStream

namespace CodexRouter

open Text JsonToken

/-! ## Events that differ in ids -/

/-- The string is an id of the retry that has another id at the client. -/
def Renamed (rewrites : List (String × String)) (s : String) : Prop :=
  ∃ ids ∈ rewrites, ids.1 = s ∧ ids.1 ≠ ids.2

/-- The values differ in strings that are ids. -/
def OnlyIds (rewrites : List (String × String)) (v w : Value) : Prop :=
  v.Rel (fun s t => s = t ∨ Renamed rewrites s) w

section

variable (serde : Serde) (rewrites : List (String × String))

/-- A line of an event, and the line that is sent: the same, or one with other data that differs in ids,
and not in the delta. -/
inductive LineKeeps : String → String → Prop
  | same (line : String) : LineKeeps line line
  | data {front back data data' : String} {v w : Value}
      (hdata : sseLineData (front ++ data ++ back) = some data) (hv : serde.fromStr data = some v)
      (hdata' : sseLineData (front ++ data' ++ back) = some data') (hw : serde.fromStr data' = some w)
      (honly : OnlyIds rewrites v w) (hdelta : ∀ s, v.getStr "delta" = some s → w.getStr "delta" = some s) :
      LineKeeps (front ++ data ++ back) (front ++ data' ++ back)

/-- An event, and the event that is sent. -/
def EventKeeps (event sent : String) : Prop :=
  List.Forall₂ (LineKeeps serde rewrites) (split (· = '\n') event) (split (· = '\n') sent)

/-- The delta of a line. -/
def lineDelta (line : String) : Option String :=
  ((sseLineData line).bind serde.fromStr).bind (Value.getStr "delta")

variable {serde rewrites} in
/-- The delta of a line is kept. -/
theorem LineKeeps.delta {line line' s : String} (h : LineKeeps serde rewrites line line')
    (hs : lineDelta serde line = some s) : lineDelta serde line' = some s := by
  cases h with
  | same line => exact hs
  | data hdata hv hdata' hw _ hdelta =>
    rw [lineDelta, hdata, Option.bind_some, hv, Option.bind_some] at hs
    rw [lineDelta, hdata', Option.bind_some, hw, Option.bind_some]
    exact hdelta s hs

/-- A line of an event with a delta, and the line that is sent with a new one. -/
inductive DeltaLineKeeps (newDelta : String) : String → String → Prop
  | same {line : String} (hdata : sseLineData line = none) : DeltaLineKeeps newDelta line line
  | data {line line' data data' : String} {v w : Value}
      (hdata : sseLineData line = some data) (hv : serde.fromStr data = some v)
      (hdata' : sseLineData line' = some data') (hw : serde.fromStr data' = some w)
      (honly : OnlyIds rewrites (v.insert "delta" (.string newDelta)) w)
      (hdelta : w.getStr "delta" = some newDelta) : DeltaLineKeeps newDelta line line'

/-- An event with a delta, and the event that is sent with a new one; blank lines do not count. -/
def DeltaEventKeeps (newDelta event sent : String) : Prop :=
  List.Forall₂ (DeltaLineKeeps serde rewrites newDelta) ((lines event).filter fun line => trim line ≠ "")
    ((split (· = '\n') sent).filter fun line => trim line ≠ "")

end

/-! ## Events as tokens -/

/-- A line of an event: any text, or data with white space around it. -/
inductive EventLine where
  | other (text : List Char)
  | data (indent blanks : List Char) (tokens : List JsonToken) (back : List Char)

/-- The text in front of the data. -/
def dataFront (indent blanks : List Char) : List Char := indent ++ "data:".toList ++ blanks

def EventLine.tokens : EventLine → List JsonToken
  | .other text => text.map .mark
  | .data indent blanks tokens back => (dataFront indent blanks).map .mark ++ tokens ++ back.map .mark

/-- The tokens of an event. -/
def eventTokens : List EventLine → List JsonToken
  | [] => []
  | [l] => l.tokens
  | l :: l' :: rest => l.tokens ++ .mark '\n' :: eventTokens (l' :: rest)

/-- The tokens start and end with a character that is no white space. -/
def Trimmed (ts : List JsonToken) : Prop :=
  (∃ c, (tokensText ts).head? = some c ∧ isWhitespace c = false)
    ∧ ∃ c, (tokensText ts).getLast? = some c ∧ isWhitespace c = false

/-- The line is what it looks like. -/
def EventLine.Valid (L : JsonLexicon) : EventLine → Prop
  | .other text => '\n' ∉ text
  | .data indent blanks tokens back => (∀ c ∈ indent ++ blanks ++ back, isWhitespace c = true ∧ c ≠ '\n')
    ∧ '\n' ∉ tokensText tokens ∧ Trimmed tokens ∧ ∃ v, JsonText L tokens v

/-- The id is the client's, or every place where it stands is all of a string; if there is one, both ids
are written as they are. -/
def IdFits (old new : String) (ts : List JsonToken) : Prop :=
  old = new ∨ old ≠ "" ∧ Whole old.toList ts
    ∧ (JsonToken.string old.toList ∈ ts → JsonPlain old.toList ∧ JsonPlain new.toList)

/-- That holds of each pair of ids in turn. -/
def IdsFit : List (String × String) → List JsonToken → Prop
  | [], _ => True
  | ids :: rewrites, ts =>
    IdFits ids.1 ids.2 ts ∧ IdsFit rewrites (ts.map (JsonToken.swap ids.1.toList ids.2.toList))

/-- The ids fit the event, and no delta is one of them. -/
def EventFits (L : JsonLexicon) (rewrites : List (String × String)) (event : String) : Prop :=
  ∃ ls ≠ [], (∀ l ∈ ls, l.Valid L) ∧ tokensText (eventTokens ls) = event.toList ∧ IdsFit rewrites (eventTokens ls)
    ∧ ∀ indent blanks tokens back, EventLine.data indent blanks tokens back ∈ ls → ∀ v, JsonText L tokens v →
      ∀ s, v.getStr "delta" = some s → ¬ Renamed rewrites s

/-- The ids fit the data of an event as it is printed with the new delta, which is not one of them. -/
def DeltaFits (serde : Serde) (L : JsonLexicon) (rewrites : List (String × String)) (newDelta event : String) :
    Prop :=
  ∀ line ∈ lines event, ∀ data v, sseLineData line = some data → serde.fromStr data = some v →
    v.asObject.isSome = true ∧ ¬ Renamed rewrites newDelta
      ∧ ∃ ts, tokensText ts = (serde.toText (v.insert "delta" (.string newDelta))).toList
        ∧ JsonText L ts (v.insert "delta" (.string newDelta)) ∧ '\n' ∉ tokensText ts ∧ Trimmed ts ∧ IdsFit rewrites ts

/-! ## Exchanging the ids in tokens -/

/-- Exchange the ids, one pair after the other. -/
def swapAll (rewrites : List (String × String)) (ts : List JsonToken) : List JsonToken :=
  rewrites.foldl (fun ts ids => ts.map (JsonToken.swap ids.1.toList ids.2.toList)) ts

/-- A string that is exchanged is written as it is, before and after. -/
def IdsPlain : List (String × String) → List JsonToken → Prop
  | [], _ => True
  | ids :: rewrites, ts =>
    (ids.1 = ids.2 ∨ (JsonToken.string ids.1.toList ∈ ts → JsonPlain ids.1.toList ∧ JsonPlain ids.2.toList))
      ∧ IdsPlain rewrites (ts.map (JsonToken.swap ids.1.toList ids.2.toList))

section

variable {rewrites : List (String × String)} {ts : List JsonToken}

theorem replace_tokensText {old new : String} (h : IdFits old new ts) :
    replace (String.ofList (tokensText ts)) old new
      = String.ofList (tokensText (ts.map (JsonToken.swap old.toList new.toList))) := by
  rcases h with rfl | ⟨hne, hwhole, -⟩
  · rw [replace_self]
    congr 2
    conv_lhs => rw [← List.map_id ts]
    exact List.map_congr_left fun t _ => t.swap_self.symm
  · have hlist : old.toList ≠ [] := fun h => hne (String.toList_injective h)
    rw [replace, if_neg hlist, String.toList_ofList, replaceChars_tokensText hlist hwhole]

/-- The replacement of text is the exchange of ids. -/
theorem replaceIds_tokensText (h : IdsFit rewrites ts) :
    replaceIds rewrites (String.ofList (tokensText ts)) = String.ofList (tokensText (swapAll rewrites ts)) := by
  induction rewrites generalizing ts with
  | nil => rfl
  | cons ids rewrites ih =>
    rw [replaceIds, List.foldl_cons, replace_tokensText h.1]
    exact ih h.2

theorem IdsFit.plain (h : IdsFit rewrites ts) : IdsPlain rewrites ts := by
  induction rewrites generalizing ts with
  | nil => trivial
  | cons ids rewrites ih => exact ⟨h.1.imp_right fun hfits => hfits.2.2, ih h.2⟩

theorem IdsPlain.mono {ts' : List JsonToken} (h : IdsPlain rewrites ts) (hsub : ∀ t ∈ ts', t ∈ ts) :
    IdsPlain rewrites ts' := by
  induction rewrites generalizing ts ts' with
  | nil => trivial
  | cons ids rewrites ih =>
    refine ⟨h.1.imp_right fun hplain hmem => hplain (hsub _ hmem), ih h.2 fun t ht => ?_⟩
    obtain ⟨u, hu, rfl⟩ := List.mem_map.mp ht
    exact List.mem_map_of_mem (hsub u hu)

theorem swapAll_append (rewrites : List (String × String)) (ts ts' : List JsonToken) :
    swapAll rewrites (ts ++ ts') = swapAll rewrites ts ++ swapAll rewrites ts' := by
  induction rewrites generalizing ts ts' with
  | nil => rfl
  | cons ids rewrites ih =>
    rw [swapAll, List.foldl_cons, List.map_append]
    exact ih _ _

theorem swapAll_marks (rewrites : List (String × String)) (cs : List Char) :
    swapAll rewrites (cs.map .mark) = cs.map .mark := by
  induction rewrites with
  | nil => rfl
  | cons ids rewrites ih =>
    rw [swapAll, List.foldl_cons, List.map_map]
    exact ih

/-- A text of a value becomes a text of a value that differs in ids. -/
theorem jsonText_swapAll {L : JsonLexicon}
    (hplain : ∀ raw, JsonPlain raw → L.unescape raw = some (String.ofList raw)) (h : IdsPlain rewrites ts)
    {v : Value} (hv : JsonText L ts v) : ∃ w, JsonText L (swapAll rewrites ts) w ∧ OnlyIds rewrites v w := by
  induction rewrites generalizing ts v with
  | nil => exact ⟨v, hv, JsonForm.rel_refl (fun _ => .inl rfl) v⟩
  | cons ids rewrites ih =>
    obtain ⟨old, new⟩ := ids
    -- the first pair
    have hstep : ∃ w, JsonText L (ts.map (JsonToken.swap old.toList new.toList)) w
        ∧ OnlyIds ((old, new) :: rewrites) v w := by
      by_cases hsame : old = new
      · subst hsame
        refine ⟨v, ?_, JsonForm.rel_refl (fun _ => .inl rfl) v⟩
        rwa [List.map_congr_left fun t _ => t.swap_self, List.map_id']
      · by_cases hmem : JsonToken.string old.toList ∈ ts
        · obtain ⟨hold, hnew⟩ := h.1.resolve_left hsame hmem
          obtain ⟨w, hw, hrel⟩ := hv.swap hplain hold hnew
          refine ⟨w, hw, JsonForm.Rel.mono (fun s t hst => hst.imp_right fun hs => ?_) hrel⟩
          exact ⟨(old, new), List.mem_cons_self, by rw [hs, String.ofList_toList], hsame⟩
        · exact ⟨v, by rwa [map_swap_of_notMem hmem], JsonForm.rel_refl (fun _ => .inl rfl) v⟩
    obtain ⟨w, hw, hfirst⟩ := hstep
    obtain ⟨u, hu, hrest⟩ := ih h.2 hw
    have hrest : OnlyIds ((old, new) :: rewrites) w u := by
      refine JsonForm.Rel.mono (fun s t hst => hst.imp_right ?_) hrest
      rintro ⟨ids, hids, hs⟩
      exact ⟨ids, List.mem_cons_of_mem _ hids, hs⟩
    refine ⟨u, hu, JsonForm.Rel.trans ?_ hfirst hrest⟩
    rintro s t u (rfl | hs) htu
    · exact htu
    · exact .inr hs

theorem mem_tokensText_swapAll (h : IdsPlain rewrites ts) {c : Char} (hc : c ∈ tokensText (swapAll rewrites ts)) :
    c ∈ tokensText ts ∨ 32 ≤ c.toNat := by
  induction rewrites generalizing ts with
  | nil => exact .inl hc
  | cons ids rewrites ih =>
    rcases ih h.2 hc with hc | hc
    · by_cases hsame : ids.1 = ids.2
      · rw [hsame, List.map_congr_left fun t _ => t.swap_self, List.map_id'] at hc
        exact .inl hc
      · rcases mem_tokensText_swap hc with hc | ⟨hmem, hc⟩
        · exact .inl hc
        · exact .inr ((h.1.resolve_left hsame hmem).2 c hc).2.2
    · exact .inr hc

theorem newline_notMem_swapAll (h : IdsPlain rewrites ts) (hts : '\n' ∉ tokensText ts) :
    '\n' ∉ tokensText (swapAll rewrites ts) := fun hmem =>
  (mem_tokensText_swapAll h hmem).elim hts fun hprint => absurd hprint (by decide)

theorem Trimmed.swapAll (h : Trimmed ts) (rewrites : List (String × String)) : Trimmed (swapAll rewrites ts) := by
  induction rewrites generalizing ts with
  | nil => exact h
  | cons ids rewrites ih =>
    refine ih ⟨?_, ?_⟩
    · rw [head?_tokensText_swap]
      exact h.1
    · rw [getLast?_tokensText_swap]
      exact h.2

end

/-! ## Lines -/

/-- The line with the ids exchanged. -/
def EventLine.swapAll (rewrites : List (String × String)) : EventLine → EventLine
  | .other text => .other text
  | .data indent blanks tokens back => .data indent blanks (CodexRouter.swapAll rewrites tokens) back

theorem EventLine.tokens_swapAll (rewrites : List (String × String)) (l : EventLine) :
    (l.swapAll rewrites).tokens = CodexRouter.swapAll rewrites l.tokens := by
  cases l with
  | other text => exact (swapAll_marks rewrites text).symm
  | data indent blanks tokens back =>
    rw [EventLine.tokens, swapAll_append, swapAll_append, swapAll_marks, swapAll_marks]
    rfl

theorem eventTokens_swapAll (rewrites : List (String × String)) (ls : List EventLine) :
    eventTokens (ls.map (·.swapAll rewrites)) = swapAll rewrites (eventTokens ls) := by
  induction ls with
  | nil => exact (swapAll_marks rewrites []).symm
  | cons l ls ih =>
    cases ls with
    | nil => exact l.tokens_swapAll rewrites
    | cons l' ls =>
      have hnewline : swapAll rewrites [.mark '\n'] = [.mark '\n'] := swapAll_marks rewrites ['\n']
      have hcons : eventTokens (l :: l' :: ls) = l.tokens ++ ([.mark '\n'] ++ eventTokens (l' :: ls)) := rfl
      rw [hcons, swapAll_append, swapAll_append, hnewline, ← ih, ← l.tokens_swapAll]
      rfl

theorem tokensText_marks (cs : List Char) : tokensText (cs.map .mark) = cs := by
  induction cs with
  | nil => rfl
  | cons c cs ih =>
    rw [List.map_cons, tokensText_cons, ih]
    rfl

theorem EventLine.tokensText_data (indent blanks : List Char) (tokens : List JsonToken) (back : List Char) :
    tokensText (EventLine.data indent blanks tokens back).tokens
      = dataFront indent blanks ++ tokensText tokens ++ back := by
  rw [EventLine.tokens, tokensText_append, tokensText_append, tokensText_marks, tokensText_marks]

/-- The lines of an event are read back. -/
theorem split_eventTokens {ls : List EventLine} (hne : ls ≠ []) (hls : ∀ l ∈ ls, '\n' ∉ tokensText l.tokens) :
    split (· = '\n') (String.ofList (tokensText (eventTokens ls))) = ls.map fun l => String.ofList (tokensText l.tokens) := by
  have hline : ∀ {l : EventLine}, '\n' ∉ tokensText l.tokens → ∀ c ∈ tokensText l.tokens, decide (c = '\n') = false := by
    intro l hl c hc
    rw [decide_eq_false_iff_not]
    rintro rfl
    exact hl hc
  have hmap : (ls.map fun l => String.ofList (tokensText l.tokens))
      = (ls.map fun l => tokensText l.tokens).map String.ofList := by
    rw [List.map_map]
    rfl
  rw [split, String.toList_ofList, hmap]
  refine congrArg (List.map String.ofList) ?_
  clear hmap
  induction ls with
  | nil => exact absurd rfl hne
  | cons l ls ih =>
    have hl := hline (hls l List.mem_cons_self)
    cases ls with
    | nil => exact splitChars_eq_self hl
    | cons l' ls =>
      have htext : tokensText (eventTokens (l :: l' :: ls)) = tokensText l.tokens ++ '\n' :: tokensText (eventTokens (l' :: ls)) :=
        tokensText_append _ _
      rw [htext, splitChars_append_cons (by decide) hl, ih (List.cons_ne_nil _ _) fun m hm =>
        hls m (List.mem_cons_of_mem _ hm)]
      rfl

/-- The data of a line, between white space. -/
theorem sseLineData_dataFront {indent blanks cs back : List Char}
    (hspace : ∀ c ∈ indent ++ blanks ++ back, isWhitespace c = true)
    (hhead : ∃ c, cs.head? = some c ∧ isWhitespace c = false)
    (hlast : ∃ c, cs.getLast? = some c ∧ isWhitespace c = false) :
    sseLineData (String.ofList (dataFront indent blanks) ++ String.ofList cs ++ String.ofList back)
      = some (String.ofList cs) := by
  have hindent : ∀ c ∈ indent, isWhitespace c = true := fun c hc => hspace c (by simp [hc])
  have hblanks : ∀ c ∈ blanks, isWhitespace c = true := fun c hc => hspace c (by simp [hc])
  have hback : ∀ c ∈ back, isWhitespace c = true := fun c hc => hspace c (by simp [hc])
  have hstart : trimStart (String.ofList (dataFront indent blanks) ++ String.ofList cs ++ String.ofList back)
      = "data:" ++ String.ofList (blanks ++ cs ++ back) := by
    rw [trimStart, trimStartMatches, ← String.ofList_append, ← String.ofList_append, String.toList_ofList,
      dataFront, List.append_assoc, List.append_assoc, List.append_assoc, List.dropWhile_append_of_pos hindent]
    show String.ofList ("data:".toList ++ (blanks ++ (cs ++ back))) = _
    rw [String.ofList_append, String.ofList_toList, List.append_assoc]
  rw [sseLineData, hstart, stripPrefix_append, Option.map_some, trim_padded hblanks hback hhead hlast]

theorem EventLine.Valid.newline {L : JsonLexicon} {l : EventLine} (h : l.Valid L) : '\n' ∉ tokensText l.tokens := by
  cases l with
  | other text => rwa [EventLine.tokens, tokensText_marks]
  | data indent blanks tokens back =>
    obtain ⟨hspace, htokens, -, -⟩ := h
    rw [EventLine.tokensText_data, dataFront]
    simp only [List.mem_append, not_or]
    refine ⟨⟨⟨⟨fun hc => ?_, by decide⟩, fun hc => ?_⟩, htokens⟩, fun hc => ?_⟩
    all_goals exact (hspace '\n' (by simp [hc])).2 rfl

/-- A line whose ids are exchanged keeps its text. -/
theorem EventLine.Valid.keeps {serde : Serde} {L : JsonLexicon} (hserde : serde.Reads L)
    {rewrites : List (String × String)} {l : EventLine} (h : l.Valid L) (hplain : IdsPlain rewrites l.tokens)
    (hdelta : ∀ indent blanks tokens back, l = .data indent blanks tokens back → ∀ v, JsonText L tokens v →
      ∀ s, v.getStr "delta" = some s → ¬ Renamed rewrites s) :
    LineKeeps serde rewrites (String.ofList (tokensText l.tokens)) (String.ofList (tokensText (l.swapAll rewrites).tokens))
      ∧ '\n' ∉ tokensText (l.swapAll rewrites).tokens := by
  have hnewline : '\n' ∉ tokensText (l.swapAll rewrites).tokens := by
    rw [EventLine.tokens_swapAll]
    exact newline_notMem_swapAll hplain h.newline
  refine ⟨?_, hnewline⟩
  cases l with
  | other text => exact .same _
  | data indent blanks tokens back =>
    obtain ⟨hspace, -, htrimmed, v, hv⟩ := h
    have hspace : ∀ c ∈ indent ++ blanks ++ back, isWhitespace c = true := fun c hc => (hspace c hc).1
    have hplain : IdsPlain rewrites tokens := hplain.mono fun t ht => by
      rw [EventLine.tokens, List.mem_append, List.mem_append]
      exact .inl (.inr ht)
    obtain ⟨w, hw, honly⟩ := jsonText_swapAll hserde.unescape_plain hplain hv
    have htrimmed' := htrimmed.swapAll rewrites
    rw [EventLine.swapAll, EventLine.tokensText_data, EventLine.tokensText_data, String.ofList_append, String.ofList_append,
      String.ofList_append, String.ofList_append]
    refine .data (sseLineData_dataFront hspace htrimmed.1 htrimmed.2) (hserde.fromStr_text _ _ hv)
      (sseLineData_dataFront hspace htrimmed'.1 htrimmed'.2) (hserde.fromStr_text _ _ hw) honly fun s hs => ?_
    exact honly.getStr hs fun t hst => (hst.resolve_right (hdelta _ _ _ _ rfl v hv s hs)).symm

/-- Replacing ids in an event that they fit. -/
theorem eventKeeps_of_fits {serde : Serde} {L : JsonLexicon} (hserde : serde.Reads L)
    {rewrites : List (String × String)} {event : String} (h : EventFits L rewrites event) :
    EventKeeps serde rewrites event (replaceIds rewrites event) := by
  obtain ⟨ls, hne, hvalid, htext, hfits, hdelta⟩ := h
  have hplain : ∀ l ∈ ls, IdsPlain rewrites l.tokens := by
    intro l hl
    refine hfits.plain.mono fun t ht => ?_
    clear hne hvalid htext hfits hdelta
    induction ls with
    | nil => cases hl
    | cons l' ls ih =>
      cases ls with
      | nil =>
        rw [List.mem_singleton] at hl
        exact hl ▸ ht
      | cons l'' ls =>
        rw [eventTokens, List.mem_append, List.mem_cons]
        rcases List.mem_cons.mp hl with rfl | hl
        · exact .inl ht
        · exact .inr (.inr (ih hl))
  have hkeeps := fun l hl => (hvalid l hl).keeps hserde (hplain l hl) fun indent blanks tokens back heq =>
    hdelta indent blanks tokens back (heq ▸ hl)
  have hevent : event = String.ofList (tokensText (eventTokens ls)) := by rw [htext, String.ofList_toList]
  rw [hevent, replaceIds_tokensText hfits, ← eventTokens_swapAll, EventKeeps,
    split_eventTokens hne fun l hl => (hvalid l hl).newline,
    split_eventTokens (by simpa using hne) (by
      intro l hl
      obtain ⟨m, hm, rfl⟩ := List.mem_map.mp hl
      exact (hkeeps m hm).2),
    List.map_map, List.forall₂_map_left_iff, List.forall₂_map_right_iff]
  exact List.forall₂_same.mpr fun l hl => (hkeeps l hl).1

/-! ## Events that pass -/

/-- A part of a text without markers has none. -/
theorem findLeakedToolStart_of_infix {text piece : List Char} (h : findLeakedToolStart text = none)
    (hpiece : piece <:+: text) : findLeakedToolStart piece = none := by
  obtain ⟨front, back, rfl⟩ := hpiece
  rw [findLeakedToolStart_eq, findAny_eq_none_iff markers_apart.ne_nil] at h ⊢
  intro n hn hstarts
  refine h (front.length + n) (by rw [List.length_append, List.length_append]; omega) ?_
  rw [List.append_assoc, ← List.drop_drop, List.drop_left, List.drop_append_of_le_length hn.le]
  exact hstarts.append back

/-- With the think scanner off, no tool restored and no marker, an event is passed on. -/
theorem rewriteSseTextWith_of_disabled {env : SinkEnv} {t : SseThink} {event : String} (hdisabled : t.disabled = true)
    (hrestore : env.toolNameRestoreActive = false) (hmarker : findLeakedToolStart event.toList = none) :
    rewriteSseTextWith env t event = (event, t) := by
  have hpiece : ∀ piece : List Char, findLeakedToolStart piece = none →
      rewriteSseEvent env t (String.ofList piece) = (String.ofList piece, t) := by
    intro piece hpiece
    have hlines : (lines (String.ofList piece)).all (linePasses env t) = true := by
      refine List.all_eq_true.mpr fun line _ => ?_
      rw [linePasses]
      cases sseLineData line with
      | none => rfl
      | some data => simp [hdisabled]
    have hpasses : eventPasses env t (String.ofList piece) = true := by
      rw [eventPasses, String.toList_ofList, hpiece, hrestore, hlines, eventMayNeedThinkRewrite, hdisabled]
      rfl
    rw [rewriteSseEvent, if_pos (.inr hpasses)]
  have hblocks : ∀ pieces : List (List Char), (∀ piece ∈ pieces, findLeakedToolStart piece = none) →
      rewriteBlocks env t pieces = (String.ofList pieces.flatten, t) := by
    intro pieces hpieces
    induction pieces with
    | nil => rfl
    | cons piece rest ih =>
      rw [rewriteBlocks, hpiece piece (hpieces piece List.mem_cons_self)]
      simp only [ih fun p hp => hpieces p (List.mem_cons_of_mem _ hp)]
      rw [← String.ofList_append, List.flatten_cons]
  have hflatten := flatten_lfBlocks (event.length + 1) event.toList
  rw [rewriteSseTextWith, hblocks _ fun piece hmem => findLeakedToolStart_of_infix hmarker
    (hflatten ▸ List.infix_of_mem_flatten hmem), hflatten, String.ofList_toList]

/-! ## New deltas -/

theorem newline_notMem_lines {event line : String} (h : line ∈ lines event) : '\n' ∉ line.toList := by
  obtain ⟨chars, hchars, rfl⟩ := List.mem_map.mp h
  obtain ⟨piece, hpiece, hsub⟩ := exists_mem_of_mem_lineList hchars
  rw [String.toList_ofList]
  intro hmem
  exact absurd (of_mem_splitChars hpiece (hsub _ hmem)) (by decide)

section

variable {serde : Serde} {L : JsonLexicon} {rewrites : List (String × String)} {newDelta : String}

/-- What is sent for a line that is not blank: a line that keeps its text. -/
theorem rewriteDeltaLine_keeps (hserde : serde.Reads L) {line out : String} (hblank : trim line ≠ "")
    (hline : '\n' ∉ line.toList)
    (hfits : ∀ data v, sseLineData line = some data → serde.fromStr data = some v →
      v.asObject.isSome = true ∧ ¬ Renamed rewrites newDelta
        ∧ ∃ ts, tokensText ts = (serde.toText (v.insert "delta" (.string newDelta))).toList
          ∧ JsonText L ts (v.insert "delta" (.string newDelta)) ∧ '\n' ∉ tokensText ts ∧ Trimmed ts
          ∧ IdsFit rewrites ts)
    (h : rewriteDeltaLine serde newDelta rewrites line = some out) :
    ∃ sent, out = sent ++ "\n" ∧ '\n' ∉ sent.toList ∧ trim sent ≠ ""
      ∧ DeltaLineKeeps serde rewrites newDelta line sent := by
  rw [rewriteDeltaLine, if_neg hblank] at h
  cases hdata : sseLineData line with
  | none =>
    rw [hdata] at h
    cases h
    exact ⟨line, rfl, hline, hblank, .same hdata⟩
  | some data =>
    rw [hdata] at h
    obtain ⟨v, hv, rfl⟩ := Option.map_eq_some_iff.mp h
    obtain ⟨hobject, hdelta, ts, htext, hts, hnewline, htrimmed, hfits⟩ := hfits data v hdata hv
    obtain ⟨w, hw, honly⟩ := jsonText_swapAll hserde.unescape_plain hfits.plain hts
    have hprint : serde.toText (v.insert "delta" (.string newDelta)) = String.ofList (tokensText ts) := by
      rw [htext, String.ofList_toList]
    have htrimmed' := htrimmed.swapAll rewrites
    have hfront : String.ofList (dataFront [] [' ']) = "data: " := by decide
    have hspace : ∀ c ∈ [] ++ [' '] ++ ([] : List Char), isWhitespace c = true :=
      List.all_iff_forall_prop.mp (by decide)
    have hsent := sseLineData_dataFront hspace htrimmed'.1 htrimmed'.2
    rw [hfront, String.ofList_nil, String.append_empty] at hsent
    refine ⟨"data: " ++ replaceIds rewrites (serde.toText (v.insert "delta" (.string newDelta))), rfl, ?_, ?_, ?_⟩
    · have hswapped := newline_notMem_swapAll hfits.plain hnewline
      rw [hprint, replaceIds_tokensText hfits, String.toList_append, List.mem_append, not_or]
      exact ⟨by decide, by rwa [String.toList_ofList]⟩
    · intro hempty
      have hd := isWhitespace_of_trim hempty (c := 'd') (by rw [String.toList_append]; exact List.mem_cons_self)
      exact absurd hd (by decide)
    · rw [hprint, replaceIds_tokensText hfits]
      refine .data hdata hv hsent (hserde.fromStr_text _ _ hw) honly ?_
      -- the data is an object, so that it has the new delta
      obtain ⟨m, rfl⟩ : ∃ m, v = .object m := by
        cases v with
        | object m => exact ⟨m, rfl⟩
        | _ => cases hobject
      have hstr : (Value.insert "delta" (.object m) (.string newDelta)).getStr "delta" = some newDelta := by
        simp [Value.getStr, Value.insert]
      exact honly.getStr hstr fun t ht => (ht.resolve_right hdelta).symm

theorem join_empty_cons (s : String) (rest : List String) : join "" (s :: rest) = s ++ join "" rest := by
  cases rest with
  | nil => exact (String.append_empty).symm
  | cons t rest => rw [join, String.append_empty]

theorem split_line {sent : String} (h : '\n' ∉ sent.toList) (rest : String) :
    split (· = '\n') (sent ++ "\n" ++ rest) = sent :: split (· = '\n') rest := by
  have hsent : ∀ c ∈ sent.toList, decide (c = '\n') = false := by
    intro c hc
    rw [decide_eq_false_iff_not]
    rintro rfl
    exact h hc
  have hlist : (sent ++ "\n" ++ rest).toList = sent.toList ++ '\n' :: rest.toList := by
    rw [String.toList_append, String.toList_append, List.append_assoc]
    rfl
  rw [split, hlist, splitChars_append_cons (by decide) hsent, List.map_cons, String.ofList_toList, split]

/-- The new event, if the ids fit the data. -/
theorem deltaEventKeeps_of_fits (hserde : serde.Reads L) {event sent : String}
    (hfits : DeltaFits serde L rewrites newDelta event)
    (h : rewriteDeltaEvent serde event newDelta rewrites = some sent) :
    DeltaEventKeeps serde rewrites newDelta event sent := by
  obtain ⟨outs, houts, rfl⟩ := Option.map_eq_some_iff.mp h
  have hlines : ∀ line ∈ lines event, '\n' ∉ line.toList := fun line hline => newline_notMem_lines hline
  rw [DeltaFits] at hfits
  rw [DeltaEventKeeps]
  generalize lines event = ls at houts hlines hfits
  clear h
  induction ls generalizing outs with
  | nil =>
    cases houts
    exact .nil
  | cons line ls ih =>
    rw [List.mapM_cons] at houts
    obtain ⟨out, hout, houts⟩ := Option.bind_eq_some_iff.mp houts
    obtain ⟨rest, hrest, houts⟩ := Option.bind_eq_some_iff.mp houts
    cases houts
    have htail := ih rest hrest (fun l hl => hlines l (List.mem_cons_of_mem _ hl)) fun l hl =>
      hfits l (List.mem_cons_of_mem _ hl)
    rw [join_empty_cons]
    by_cases hblank : trim line = ""
    · rw [rewriteDeltaLine, if_pos hblank] at hout
      cases hout
      rw [List.filter_cons_of_neg (by simp [hblank]), String.empty_append]
      exact htail
    · obtain ⟨sent, rfl, hnewline, hsent, hkeeps⟩ := rewriteDeltaLine_keeps hserde hblank
        (hlines line List.mem_cons_self) (hfits line List.mem_cons_self) hout
      rw [List.filter_cons_of_pos (by simp [hblank]), String.append_assoc, split_line hnewline,
        List.filter_cons_of_pos (by simp [hsent])]
      exact .cons hkeeps htail

end

/-! ## Rewriting keeps the text -/

/-- Whatever the events and the ids, only strings that are ids change. -/
def KeepsText : Prop :=
  ∀ (serde : Serde) (L : JsonLexicon), serde.Reads L → ∀ rewrites : List (String × String),
    (∀ (env : SinkEnv) (t : SseThink) (event : String), env.serde = serde → t.disabled = true →
      env.toolNameRestoreActive = false → findLeakedToolStart event.toList = none →
      EventKeeps serde rewrites event (applySseRewrites env t event rewrites).1)
    ∧ ∀ event newDelta sent,
      (∀ line ∈ lines event, ∀ data v, sseLineData line = some data → serde.fromStr data = some v →
        v.asObject.isSome = true) →
      rewriteDeltaEvent serde event newDelta rewrites = some sent →
      DeltaEventKeeps serde rewrites newDelta event sent

/-- Only strings that are ids change, in an event that the ids fit. -/
theorem keepsText_of_fits (serde : Serde) (L : JsonLexicon) (hserde : serde.Reads L)
    (rewrites : List (String × String)) :
    (∀ (env : SinkEnv) (t : SseThink) (event : String), env.serde = serde → t.disabled = true →
      env.toolNameRestoreActive = false → findLeakedToolStart event.toList = none → EventFits L rewrites event →
      EventKeeps serde rewrites event (applySseRewrites env t event rewrites).1)
    ∧ ∀ event newDelta sent, DeltaFits serde L rewrites newDelta event →
      rewriteDeltaEvent serde event newDelta rewrites = some sent →
      DeltaEventKeeps serde rewrites newDelta event sent := by
  refine ⟨fun env t event _ hdisabled hrestore hmarker hfits => ?_, fun event newDelta sent hfits hsent => ?_⟩
  · have happlied : (applySseRewrites env t event rewrites).1 = replaceIds rewrites event := by
      rw [applySseRewrites, rewriteSseTextWith_of_disabled hdisabled hrestore hmarker]
    rw [happlied]
    exact eventKeeps_of_fits hserde hfits
  · exact deltaEventKeeps_of_fits hserde hfits hsent

/-- The tokens of the data with a message's id, and its answer as the delta. -/
def deltaTokens (id answer : String) : List JsonToken :=
  [.mark '\x7b', .key "delta".toList, .mark ':', .string answer.toList, .mark ',', .key "item_id".toList, .mark ':',
    .string id.toList, .mark '\x7d']

/-- The event with that data. -/
def deltaEvent (id answer : String) : String :=
  "data: " ++ String.ofList (tokensText (deltaTokens id answer)) ++ "\n\n"

/-- The environment of the examples. -/
def plainEnv : SinkEnv := ⟨(JsonLexicon.plain 127).serde, false, fun t event => (event, t), fun t => ("", t)⟩

theorem jsonText_deltaTokens {id answer : String} (hid : JsonPlain id.toList) (hanswer : JsonPlain answer.toList) :
    JsonText (.plain 127) (deltaTokens id answer)
      (.object [("delta", .string answer), ("item_id", .string id)]) := by
  have hplain : ∀ s : String, JsonPlain s.toList → (JsonLexicon.plain 127).unescape s.toList = some s := by
    intro s hs
    rw [JsonLexicon.plain]
    exact (if_pos hs).trans (by rw [String.ofList_toList])
  have hbody : ∀ s : String, JsonPlain s.toList → stringBody s.toList = true := fun s hs => stringBody_of_jsonPlain hs
  have hkey : JsonPlain "delta".toList ∧ JsonPlain "item_id".toList := by decide
  have hentry := Derives.entry (d := 126) (hbody _ hkey.1) (hplain _ hkey.1)
    (.string (hbody _ hanswer) (hplain answer hanswer))
    (.lastEntry (hbody _ hkey.2) (hplain _ hkey.2) (.string (hbody _ hid) (hplain id hid)))
  have hmembers : [("delta", Value.string answer), ("item_id", .string id)].foldl
      (fun acc e => Members.insert e.1 e.2 acc) [] = [("delta", .string answer), ("item_id", .string id)] := by
    have hne : ¬ "delta" = "item_id" := by decide
    have hlt : ¬ "item_id" < "delta" := by decide
    rw [List.foldl_cons, List.foldl_cons, List.foldl_nil, Members.insert, Members.insert, if_neg hne, if_neg hlt,
      Members.insert]
  have hobject := hentry.object
  rw [hmembers] at hobject
  refine ⟨?_, hobject⟩
  simp [deltaTokens, JsonToken.isWord]

theorem fits_deltaTokens (answer : String) (h : answer = "hi" ∨ answer = "i") :
    JsonText (.plain 127) (deltaTokens "m1" answer) (.object [("delta", .string answer), ("item_id", .string "m1")])
      ∧ '\n' ∉ tokensText (deltaTokens "m1" answer) ∧ Trimmed (deltaTokens "m1" answer)
      ∧ ¬ Renamed [("m1", "m0")] answer := by
  have hanswer : JsonPlain answer.toList := by rcases h with rfl | rfl <;> decide
  refine ⟨jsonText_deltaTokens (by decide) hanswer, ?_, ⟨⟨'\x7b', rfl, by decide⟩, '\x7d', ?_, by decide⟩, ?_⟩
  · rcases h with rfl | rfl <;> decide +kernel
  · rcases h with rfl | rfl <;> decide +kernel
  · rintro ⟨ids, hids, hs, -⟩
    rw [List.mem_singleton] at hids
    subst hids
    rcases h with rfl | rfl <;> exact absurd hs (by decide)

/-- An id that is all of a string is exchanged, and nothing else. -/
theorem keepsText_of_fits_item :
    EventKeeps plainEnv.serde [("m1", "m0")] (deltaEvent "m1" "hi")
        (applySseRewrites plainEnv (.new true false) (deltaEvent "m1" "hi") [("m1", "m0")]).1
      ∧ DeltaEventKeeps plainEnv.serde [("m1", "m0")] "i" (deltaEvent "m1" "hi") (deltaEvent "m0" "i") := by
  have hkeeps := keepsText_of_fits plainEnv.serde (.plain 127) (JsonLexicon.plain_reads 127) [("m1", "m0")]
  obtain ⟨htext, hnewline, htrimmed, hdelta⟩ := fits_deltaTokens "hi" (.inl rfl)
  have hparse := (JsonLexicon.plain_reads 127).fromStr_text _ _ htext
  constructor
  · refine hkeeps.1 plainEnv (.new true false) (deltaEvent "m1" "hi") rfl rfl rfl (by decide +kernel)
      ⟨[.data [] [' '] (deltaTokens "m1" "hi") [], .other [], .other []], by simp, ?_, by decide +kernel, ?_, ?_⟩
    · simp only [List.forall_mem_cons]
      exact ⟨⟨List.all_iff_forall_prop.mp (by decide), hnewline, htrimmed, _, htext⟩, List.not_mem_nil, List.not_mem_nil, nofun⟩
    · exact ⟨.inr ⟨by decide, whole_of_forall_lt (by decide) (by decide +kernel), fun _ => by decide⟩, trivial⟩
    · intro indent blanks tokens back hmem v hv s hs
      have htokens : tokens = deltaTokens "m1" "hi" := by
        simp only [List.mem_cons, EventLine.data.injEq, reduceCtorEq, List.not_mem_nil, or_false] at hmem
        exact hmem.2.2.1
      subst htokens
      have hvalue := ((JsonLexicon.plain_reads 127).fromStr_text _ _ hv).symm.trans hparse
      rw [Option.some.inj hvalue] at hs
      cases hs
      exact hdelta
  · obtain ⟨htext', hnewline', htrimmed', hdelta'⟩ := fits_deltaTokens "i" (.inr rfl)
    have hsent : rewriteDeltaEvent plainEnv.serde (deltaEvent "m1" "hi") "i" [("m1", "m0")]
        = some (deltaEvent "m0" "i") := by decide +kernel
    refine hkeeps.2 _ _ _ ?_ hsent
    intro line hline data v hdata hv
    have hlines : lines (deltaEvent "m1" "hi")
        = ["data: " ++ String.ofList (tokensText (deltaTokens "m1" "hi")), ""] := by decide +kernel
    have hline : sseLineData line = some data → data = String.ofList (tokensText (deltaTokens "m1" "hi")) := by
      rw [hlines] at hline
      simp only [List.mem_cons, List.not_mem_nil, or_false] at hline
      rcases hline with rfl | rfl
      · have hread : sseLineData ("data: " ++ String.ofList (tokensText (deltaTokens "m1" "hi")))
            = some (String.ofList (tokensText (deltaTokens "m1" "hi"))) := by decide +kernel
        exact fun h => Option.some.inj (h.symm.trans hread)
      · have hread : sseLineData "" = none := by decide +kernel
        exact fun h => absurd (h.symm.trans hread) (Option.some_ne_none _)
    have hvalue := hv.symm.trans ((congrArg plainEnv.serde.fromStr (hline hdata)).trans hparse)
    cases Option.some.inj hvalue
    refine ⟨rfl, hdelta', deltaTokens "m1" "i", by decide +kernel, htext', hnewline', htrimmed', ?_⟩
    exact ⟨.inr ⟨by decide, whole_of_forall_lt (by decide) (by decide +kernel), fun _ => by decide⟩, trivial⟩

/-- The replacement reaches the answer's text. -/
theorem not_keepsText_delta :
    (applySseRewrites plainEnv (.new true false) (deltaEvent "m1" "not m1") [("m1", "m0")]).1
        = deltaEvent "m0" "not m0"
      ∧ ¬ KeepsText := by
  have happlied : (applySseRewrites plainEnv (.new true false) (deltaEvent "m1" "not m1") [("m1", "m0")]).1
      = deltaEvent "m0" "not m0" := by decide +kernel
  refine ⟨happlied, fun h => ?_⟩
  have hkeeps := (h _ _ (JsonLexicon.plain_reads 127) [("m1", "m0")]).1 plainEnv (.new true false)
    (deltaEvent "m1" "not m1") rfl rfl rfl (by decide +kernel)
  rw [happlied, EventKeeps] at hkeeps
  have hbefore : split (· = '\n') (deltaEvent "m1" "not m1")
      = ["data: " ++ String.ofList (tokensText (deltaTokens "m1" "not m1")), "", ""] := by decide +kernel
  have hafter : split (· = '\n') (deltaEvent "m0" "not m0")
      = ["data: " ++ String.ofList (tokensText (deltaTokens "m0" "not m0")), "", ""] := by decide +kernel
  rw [hbefore, hafter, List.forall₂_cons] at hkeeps
  have hdelta := hkeeps.1.delta (s := "not m1") (by decide +kernel)
  revert hdelta
  decide +kernel

end CodexRouter
