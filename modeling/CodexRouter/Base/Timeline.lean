/-
# Timelines of items

A stream announces items, sends pieces of their texts, repeats the whole text and ends
each item; at last the stream itself is complete.  An item has a name and a place.
`Timeline.step` accepts one message and keeps the items that are open; what a whole
stream satisfies that is accepted to its end is `Consistent` (`consistent_of_run`).
-/
import Mathlib.Data.List.Nodup
import Mathlib.Data.List.Perm.Basic
import Mathlib.Data.List.Induction

namespace Timeline

/-- A message about an item with a name and a place, or about the stream. -/
inductive Mark (ι : Type) where
  | added (id : ι) (place : ℕ)
  | delta (id : ι) (place : ℕ) (text : String)
  | final (id : ι) (place : ℕ) (text : String)
  | done (id : ι) (place : ℕ) (text : Option String)
  | completed
  deriving DecidableEq

variable {ι : Type}

/-- The item that is announced. -/
def Mark.addedItem : Mark ι → Option (ι × ℕ)
  | .added id place => some (id, place)
  | _ => none

/-- The item that is ended. -/
def Mark.doneItem : Mark ι → Option (ι × ℕ)
  | .done id place _ => some (id, place)
  | _ => none

/-- The item that a message speaks of without announcing it. -/
def Mark.item : Mark ι → Option (ι × ℕ)
  | .delta id place _ | .final id place _ | .done id place _ => some (id, place)
  | _ => none

/-- The whole text of an item, where it is repeated. -/
def Mark.wholeText : Mark ι → Option (ι × String)
  | .final id _ text | .done id _ (some text) => some (id, text)
  | _ => none

/-- The items that are announced. -/
def addedItems (marks : List (Mark ι)) : List (ι × ℕ) := marks.filterMap Mark.addedItem

/-- The items that are ended. -/
def doneItems (marks : List (Mark ι)) : List (ι × ℕ) := marks.filterMap Mark.doneItem

section

variable [DecidableEq ι]

/-- The piece of a message, where it is one of this item. -/
def Mark.piece (id : ι) : Mark ι → String
  | .delta id' _ text => if id' = id then text else ""
  | _ => ""

/-- The pieces of an item put together. -/
def pieces (id : ι) (marks : List (Mark ι)) : String :=
  marks.foldl (fun text mark => text ++ mark.piece id) ""

/-- Every item has a name and a place of its own, is announced before anything is said
of it and is ended once; its whole text is its pieces put together; and the stream is
complete once. -/
structure Consistent (marks : List (Mark ι)) : Prop where
  completed : marks.count .completed = 1
  ids : ((addedItems marks).map Prod.fst).Nodup
  places : ((addedItems marks).map Prod.snd).Nodup
  ended : (doneItems marks).Perm (addedItems marks)
  announced : ∀ front mark back item, marks = front ++ mark :: back → mark.item = some item →
    item ∈ addedItems front
  text : ∀ mark ∈ marks, ∀ id text, mark.wholeText = some (id, text) → text = pieces id marks

/-! ## The acceptor -/

/-- An open item: its text so far, and whether the whole text has been sent. -/
structure Entry (ι : Type) where
  id : ι
  place : ℕ
  text : String
  whole : Bool
  deriving DecidableEq

end

end Timeline

/-- What has been announced, what is open, and whether the stream is complete. -/
structure Timeline (ι : Type) where
  items : List (ι × ℕ)
  opened : List (Timeline.Entry ι)
  completed : Bool

namespace Timeline

variable {ι : Type} [DecidableEq ι]

/-- Nothing announced. -/
def empty : Timeline ι := ⟨[], [], false⟩

/-- The open item with the name. -/
def find (t : Timeline ι) (id : ι) : Option (Entry ι) := t.opened.find? (·.id = id)

/-- The open item with the name, changed. -/
def update (t : Timeline ι) (id : ι) (f : Entry ι → Entry ι) : Timeline ι :=
  { t with opened := t.opened.map fun e => if e.id = id then f e else e }

/-- Accept one message. -/
def step (t : Timeline ι) : Mark ι → Option (Timeline ι)
  | .added id place =>
    if t.completed ∨ id ∈ t.items.map Prod.fst ∨ place ∈ t.items.map Prod.snd then none
    else some { t with items := t.items ++ [(id, place)], opened := t.opened ++ [⟨id, place, "", false⟩] }
  | .delta id place text =>
    (t.find id).bind fun e =>
      if e.place = place ∧ e.whole = false then
        some (t.update id fun e => { e with text := e.text ++ text })
      else none
  | .final id place text =>
    (t.find id).bind fun e =>
      if e.place = place ∧ e.text = text then some (t.update id fun e => { e with whole := true })
      else none
  | .done id place text =>
    (t.find id).bind fun e =>
      if e.place = place ∧ (text = none ∨ text = some e.text) then
        some { t with opened := t.opened.filter fun e => e.id ≠ id }
      else none
  | .completed => if t.completed ∨ t.opened ≠ [] then none else some { t with completed := true }

/-- Accept the messages one after the other. -/
def run (t : Timeline ι) : List (Mark ι) → Option (Timeline ι)
  | [] => some t
  | mark :: marks => (t.step mark).bind fun t => run t marks

theorem run_append (t : Timeline ι) (marks marks' : List (Mark ι)) :
    t.run (marks ++ marks') = (t.run marks).bind fun t => t.run marks' := by
  induction marks generalizing t with
  | nil => rfl
  | cons mark marks ih =>
    rw [List.cons_append, run, run]
    cases t.step mark with
    | none => rfl
    | some t => exact ih t

theorem run_singleton (t : Timeline ι) (mark : Mark ι) : t.run [mark] = t.step mark := by
  rw [run]
  cases t.step mark <;> rfl

/-! ## What is accepted is consistent -/

/-- What the accepted messages leave. -/
structure Accepted (marks : List (Mark ι)) (t : Timeline ι) : Prop where
  items : t.items = addedItems marks
  ids : (t.items.map Prod.fst).Nodup
  places : (t.items.map Prod.snd).Nodup
  count : marks.count .completed = if t.completed then 1 else 0
  closed : t.completed = true → t.opened = []
  entries : (t.opened.map Entry.id).Nodup
  opened : ∀ e ∈ t.opened, (e.id, e.place) ∈ t.items ∧ e.text = pieces e.id marks
  ended : (doneItems marks ++ t.opened.map fun e => (e.id, e.place)).Perm (addedItems marks)
  announced : ∀ front mark back item, marks = front ++ mark :: back → mark.item = some item →
    item ∈ addedItems front
  text : ∀ mark ∈ marks, ∀ id text, mark.wholeText = some (id, text) → text = pieces id marks
    ∧ ∀ e ∈ t.opened, e.id = id → e.whole = true

theorem accepted_empty : Accepted [] (empty : Timeline ι) where
  items := rfl
  ids := List.nodup_nil
  places := List.nodup_nil
  count := rfl
  closed h := by cases h
  entries := List.nodup_nil
  opened e he := by cases he
  ended := .nil
  announced front mark back item h := by cases front <;> cases h
  text mark h := by cases h

theorem pieces_append (id : ι) (marks : List (Mark ι)) (mark : Mark ι) :
    pieces id (marks ++ [mark]) = pieces id marks ++ mark.piece id := by
  rw [pieces, List.foldl_append]
  rfl

omit [DecidableEq ι] in
theorem addedItems_append (marks : List (Mark ι)) (mark : Mark ι) :
    addedItems (marks ++ [mark]) = addedItems marks ++ mark.addedItem.toList := by
  rw [addedItems, List.filterMap_append]
  cases h : mark.addedItem <;> simp [addedItems, h]

omit [DecidableEq ι] in
theorem doneItems_append (marks : List (Mark ι)) (mark : Mark ι) :
    doneItems (marks ++ [mark]) = doneItems marks ++ mark.doneItem.toList := by
  rw [doneItems, List.filterMap_append]
  cases h : mark.doneItem <;> simp [doneItems, h]

theorem mem_of_find {t : Timeline ι} {id : ι} {e : Entry ι} (h : t.find id = some e) :
    e ∈ t.opened ∧ e.id = id :=
  ⟨List.mem_of_find?_eq_some h, by simpa using List.find?_some h⟩

/-- With distinct names, an open item is found under its name. -/
theorem find_of_mem {t : Timeline ι} (hnodup : (t.opened.map Entry.id).Nodup) {e : Entry ι}
    (he : e ∈ t.opened) : t.find e.id = some e := by
  cases h : t.find e.id with
  | none =>
    rw [find, List.find?_eq_none] at h
    have hne := h e he
    simp at hne
  | some e' =>
    obtain ⟨he', hid⟩ := mem_of_find h
    rw [List.inj_on_of_nodup_map hnodup he' he hid]

omit [DecidableEq ι] in
/-- Nothing is said of an item that is not announced. -/
theorem announced_append {marks : List (Mark ι)} {mark : Mark ι}
    (h : ∀ front mark back item, marks = front ++ mark :: back → mark.item = some item →
      item ∈ addedItems front)
    (hmark : ∀ item, mark.item = some item → item ∈ addedItems marks) :
    ∀ front m back item, marks ++ [mark] = front ++ m :: back → m.item = some item →
      item ∈ addedItems front := by
  intro front m back item heq hitem
  rcases List.eq_nil_or_concat' back with rfl | ⟨back, last, rfl⟩
  · obtain ⟨hfront, hlast⟩ := List.append_inj' heq rfl
    cases hlast
    exact hfront ▸ hmark item hitem
  · rw [← List.cons_append, ← List.append_assoc] at heq
    exact h front m back item (List.append_inj' heq rfl).1 hitem

theorem pieces_append_of {id : ι} {mark : Mark ι} (h : mark.piece id = "") (marks : List (Mark ι)) :
    pieces id (marks ++ [mark]) = pieces id marks := by
  rw [pieces_append, h, String.append_empty]

theorem pieces_eq_empty {id : ι} {marks : List (Mark ι)} (h : ∀ m ∈ marks, m.piece id = "") :
    pieces id marks = "" := by
  induction marks using List.reverseRecOn with
  | nil => rfl
  | append_singleton marks mark ih =>
    rw [pieces_append, ih fun m hm => h m (List.mem_append_left _ hm),
      h mark (List.mem_append_right _ (List.mem_singleton_self _)), String.append_empty]

theorem count_append {marks : List (Mark ι)} {mark : Mark ι} (h : mark ≠ .completed) :
    (marks ++ [mark]).count .completed = marks.count .completed := by
  rw [List.count_append, List.count_singleton, beq_eq_false_iff_ne.mpr h]
  rfl

theorem mem_update {t : Timeline ι} {id : ι} {f : Entry ι → Entry ι} {e' : Entry ι}
    (h : e' ∈ (t.update id f).opened) :
    ∃ e ∈ t.opened, e' = if e.id = id then f e else e := by
  obtain ⟨e, he, heq⟩ := List.mem_map.mp h
  exact ⟨e, he, heq.symm⟩

/-- A change that keeps name and place. -/
theorem map_update {β : Type} {t : Timeline ι} {id : ι} {f : Entry ι → Entry ι} {g : Entry ι → β}
    (hf : ∀ e, g (f e) = g e) : (t.update id f).opened.map g = t.opened.map g := by
  rw [update, List.map_map]
  refine List.map_congr_left fun e _ => ?_
  rw [Function.comp]
  split
  · exact hf e
  · rfl

/-- A message about an open item keeps what has been accepted, if it keeps the texts. -/
theorem Accepted.update {marks : List (Mark ι)} {t : Timeline ι} (h : Accepted marks t) {mark : Mark ι}
    {id : ι} {e : Entry ι} (hfind : t.find id = some e) {f : Entry ι → Entry ι}
    (hadded : mark.addedItem = none) (hdone : mark.doneItem = none) (hmark : mark ≠ .completed)
    (hitem : mark.item = some (id, e.place)) (hid : ∀ e, (f e).id = e.id)
    (hplace : ∀ e, (f e).place = e.place)
    (hopened : (f e).text = pieces id (marks ++ [mark]))
    (hpiece : ∀ id', id' ≠ id → mark.piece id' = "")
    (htext : ∀ m ∈ marks ++ [mark], ∀ id' text, m.wholeText = some (id', text) →
      text = pieces id' (marks ++ [mark])
        ∧ ∀ e ∈ (t.update id f).opened, e.id = id' → e.whole = true) :
    Accepted (marks ++ [mark]) (t.update id f) := by
  obtain ⟨hmem, hname⟩ := mem_of_find hfind
  have hclosed : t.completed = false := by
    cases hcompleted : t.completed with
    | false => rfl
    | true =>
      rw [h.closed hcompleted] at hmem
      cases hmem
  refine ⟨?_, h.ids, h.places, ?_, ?_, ?_, ?_, ?_, ?_, htext⟩
  · rw [addedItems_append, hadded, Option.toList_none, List.append_nil]
    exact h.items
  · rw [count_append hmark]
    exact h.count
  · intro hcompleted
    rw [Timeline.update, hclosed] at hcompleted
    cases hcompleted
  · rw [map_update hid]
    exact h.entries
  · intro e' he'
    obtain ⟨x, hx, rfl⟩ := mem_update he'
    obtain ⟨hitems, hpieces⟩ := h.opened x hx
    split
    · rename_i heq
      have hsame : x = e := List.inj_on_of_nodup_map h.entries hx hmem (heq.trans hname.symm)
      subst hsame
      rw [hid, hplace, hopened, hname]
      exact ⟨hname ▸ hitems, rfl⟩
    · rename_i hne
      rw [pieces_append, hpiece _ hne, String.append_empty]
      exact ⟨hitems, hpieces⟩
  · rw [doneItems_append, hdone, Option.toList_none, List.append_nil, addedItems_append, hadded,
      Option.toList_none, List.append_nil, map_update fun e => by rw [hid, hplace]]
    exact h.ended
  · refine announced_append h.announced fun item heq => ?_
    rw [hitem, Option.some.injEq] at heq
    rw [← h.items, ← heq, ← hname]
    exact (h.opened e hmem).1

omit [DecidableEq ι] in
theorem nodup_append_singleton {β : Type} {l : List β} {b : β} (h : l.Nodup) (hb : b ∉ l) :
    (l ++ [b]).Nodup := by
  rw [← List.concat_eq_append]
  exact h.concat hb

/-- An open item and the others. -/
theorem perm_cons_filter {l : List (Entry ι)} (h : (l.map Entry.id).Nodup) {e : Entry ι} (he : e ∈ l) :
    l.Perm (e :: l.filter fun x => x.id ≠ e.id) := by
  induction l with
  | nil => cases he
  | cons x l ih =>
    rw [List.map_cons, List.nodup_cons] at h
    rcases List.mem_cons.mp he with rfl | he
    · have hothers : l.filter (fun x => x.id ≠ e.id) = l := by
        rw [List.filter_eq_self]
        intro y hy
        have hne : y.id ≠ e.id := fun heq => h.1 (heq ▸ List.mem_map_of_mem hy)
        simpa using hne
      rw [List.filter_cons_of_neg (by simp), hothers]
    · have hne : x.id ≠ e.id := fun heq => h.1 (heq ▸ List.mem_map_of_mem he)
      rw [List.filter_cons_of_pos (by simpa using hne)]
      exact ((ih h.2 he).cons x).trans (List.Perm.swap e x _)

theorem accepted_step {marks : List (Mark ι)} {t t' : Timeline ι} {mark : Mark ι} (h : Accepted marks t)
    (hstep : t.step mark = some t') : Accepted (marks ++ [mark]) t' := by
  cases mark with
  | added id place =>
    rw [step] at hstep
    split at hstep
    · cases hstep
    · rename_i hno
      rw [not_or, not_or, Bool.not_eq_true] at hno
      obtain ⟨hopen, hid, hplace⟩ := hno
      cases hstep
      have hnone : ∀ m ∈ marks, ∀ item, m.item = some item → item.1 ≠ id := by
        intro m hm item hitem heq
        obtain ⟨front, back, rfl⟩ := List.append_of_mem hm
        have hmem := h.announced front m back item rfl hitem
        rw [h.items] at hid
        refine hid (List.mem_map.mpr ⟨item, ?_, heq⟩)
        rw [addedItems, List.filterMap_append]
        exact List.mem_append_left _ hmem
      have hfresh : id ∉ t.opened.map Entry.id := by
        intro hmem
        obtain ⟨e, he, rfl⟩ := List.mem_map.mp hmem
        exact hid (List.mem_map.mpr ⟨_, (h.opened e he).1, rfl⟩)
      have hpieces : pieces id marks = "" := pieces_eq_empty fun m hm => by
        cases m with
        | delta id' place' text' =>
          rw [Mark.piece, if_neg]
          exact hnone _ hm (id', place') rfl
        | _ => rfl
      have hsame : ∀ id', pieces id' (marks ++ [Mark.added id place]) = pieces id' marks :=
        fun id' => pieces_append_of rfl marks
      refine ⟨?_, ?_, ?_, ?_, ?_, ?_, ?_, ?_, ?_, ?_⟩
      · rw [addedItems_append, ← h.items]
        rfl
      · rw [List.map_append, List.map_singleton]
        exact nodup_append_singleton h.ids hid
      · rw [List.map_append, List.map_singleton]
        exact nodup_append_singleton h.places hplace
      · rw [count_append (by simp)]
        exact h.count
      · intro hcompleted
        rw [hopen] at hcompleted
        cases hcompleted
      · rw [List.map_append, List.map_singleton]
        exact nodup_append_singleton h.entries hfresh
      · intro e he
        rw [hsame]
        rcases List.mem_append.mp he with he | he
        · obtain ⟨hmem, htext⟩ := h.opened e he
          exact ⟨List.mem_append_left _ hmem, htext⟩
        · rw [List.mem_singleton] at he
          subst he
          exact ⟨List.mem_append_right _ (List.mem_singleton_self _), hpieces.symm⟩
      · have hnone : (Mark.added id place : Mark ι).doneItem = none := rfl
        rw [doneItems_append, addedItems_append, List.map_append, hnone, Option.toList_none,
          List.append_nil, ← List.append_assoc]
        exact h.ended.append_right _
      · exact announced_append h.announced fun item heq => by cases heq
      · intro m hm id' text' hwhole
        rw [hsame]
        rw [List.mem_append, List.mem_singleton] at hm
        rcases hm with hm | rfl
        · obtain ⟨htext, hold⟩ := h.text m hm id' text' hwhole
          refine ⟨htext, fun e he heq => ?_⟩
          rcases List.mem_append.mp he with he | he
          · exact hold e he heq
          · rw [List.mem_singleton] at he
            subst he
            obtain ⟨item, hitem, hname⟩ : ∃ item, m.item = some item ∧ item.1 = id' := by
              cases m with
              | final id'' place'' text'' =>
                cases hwhole
                exact ⟨_, rfl, rfl⟩
              | done id'' place'' text'' =>
                cases text'' with
                | none => cases hwhole
                | some text'' =>
                  cases hwhole
                  exact ⟨_, rfl, rfl⟩
              | _ => cases hwhole
            exact absurd (hname.trans heq.symm) (hnone m hm item hitem)
        · cases hwhole
  | delta id place text =>
    rw [step] at hstep
    obtain ⟨e, hfind, hsome⟩ := Option.bind_eq_some_iff.mp hstep
    split at hsome
    · rename_i hcond
      obtain ⟨rfl, hwhole⟩ := hcond
      rw [Option.some.injEq] at hsome
      subst hsome
      obtain ⟨hmem, hname⟩ := mem_of_find hfind
      refine h.update hfind rfl rfl (by simp) rfl (fun _ => rfl) (fun _ => rfl) ?_ ?_ ?_
      · rw [pieces_append, Mark.piece, if_pos rfl, ← hname, ← (h.opened e hmem).2]
      · intro id' hne
        rw [Mark.piece, if_neg (Ne.symm hne)]
      · intro m hm id' text' hwholeText
        rw [List.mem_append, List.mem_singleton] at hm
        rcases hm with hm | rfl
        · obtain ⟨htext, hopened⟩ := h.text m hm id' text' hwholeText
          have hne : id' ≠ id := by
            rintro rfl
            rw [hopened e hmem hname] at hwhole
            cases hwhole
          refine ⟨by rw [pieces_append, Mark.piece, if_neg (Ne.symm hne), String.append_empty, htext],
            fun e' he' heq => ?_⟩
          obtain ⟨x, hx, rfl⟩ := mem_update he'
          split at heq
          · rename_i hxid
            exact absurd (heq.symm.trans hxid) hne
          · rename_i hxid
            rw [if_neg hxid]
            exact hopened x hx heq
        · cases hwholeText
    · cases hsome
  | final id place text =>
    rw [step] at hstep
    obtain ⟨e, hfind, hsome⟩ := Option.bind_eq_some_iff.mp hstep
    split at hsome
    · rename_i hcond
      obtain ⟨rfl, rfl⟩ := hcond
      rw [Option.some.injEq] at hsome
      subst hsome
      obtain ⟨hmem, hname⟩ := mem_of_find hfind
      have hpieces : ∀ id', pieces id' (marks ++ [Mark.final id e.place e.text]) = pieces id' marks :=
        fun id' => pieces_append_of rfl marks
      refine h.update hfind rfl rfl (by simp) rfl (fun _ => rfl) (fun _ => rfl) ?_ (fun _ _ => rfl) ?_
      · rw [hpieces, ← hname]
        exact (h.opened e hmem).2
      · intro m hm id' text' hwholeText
        rw [hpieces]
        rw [List.mem_append, List.mem_singleton] at hm
        have hopened : ∀ e' ∈ (t.update id fun e => { e with whole := true }).opened, e'.id = id →
            e'.whole = true := by
          intro e' he' heq
          obtain ⟨x, hx, rfl⟩ := mem_update he'
          split at heq
          · rename_i hxid
            rw [if_pos hxid]
          · rename_i hxid
            exact absurd heq hxid
        rcases hm with hm | rfl
        · obtain ⟨htext, hold⟩ := h.text m hm id' text' hwholeText
          refine ⟨htext, fun e' he' heq => ?_⟩
          by_cases hid : id' = id
          · exact hopened e' he' (heq.trans hid)
          · obtain ⟨x, hx, rfl⟩ := mem_update he'
            split at heq
            · rename_i hxid
              exact absurd (heq.symm.trans hxid) hid
            · rename_i hxid
              rw [if_neg hxid]
              exact hold x hx heq
        · cases hwholeText
          exact ⟨hname ▸ (h.opened e hmem).2, hopened⟩
    · cases hsome
  | done id place text =>
    rw [step] at hstep
    obtain ⟨e, hfind, hsome⟩ := Option.bind_eq_some_iff.mp hstep
    split at hsome
    · rename_i hcond
      obtain ⟨rfl, htext⟩ := hcond
      rw [Option.some.injEq] at hsome
      subst hsome
      obtain ⟨hmem, hname⟩ := mem_of_find hfind
      have hpieces : ∀ id', pieces id' (marks ++ [Mark.done id e.place text]) = pieces id' marks :=
        fun id' => pieces_append_of rfl marks
      have hsub : ∀ x ∈ t.opened.filter fun e => e.id ≠ id, x ∈ t.opened := fun x hx =>
        List.mem_of_mem_filter hx
      refine ⟨?_, h.ids, h.places, ?_, ?_, ?_, ?_, ?_, ?_, ?_⟩
      · rw [addedItems_append]
        simpa [Mark.addedItem] using h.items
      · rw [count_append (by simp)]
        exact h.count
      · intro hcompleted
        rw [h.closed hcompleted]
        rfl
      · exact h.entries.sublist (List.filter_sublist.map _)
      · intro x hx
        rw [hpieces]
        exact h.opened x (hsub x hx)
      · have hperm := (perm_cons_filter h.entries hmem).map fun e : Entry ι => (e.id, e.place)
        have hadded : (Mark.done id e.place text).addedItem = none := rfl
        have hdone : (Mark.done id e.place text).doneItem = some (id, e.place) := rfl
        rw [doneItems_append, addedItems_append, hadded, hdone, Option.toList_none, List.append_nil,
          Option.toList_some, List.append_assoc, List.singleton_append]
        rw [hname, List.map_cons, hname] at hperm
        exact (hperm.symm.append_left _).trans h.ended
      · refine announced_append h.announced fun item heq => ?_
        cases heq
        rw [← h.items, ← hname]
        exact (h.opened e hmem).1
      · intro m hm id' text' hwhole
        rw [hpieces]
        rw [List.mem_append, List.mem_singleton] at hm
        rcases hm with hm | rfl
        · obtain ⟨htext', hold⟩ := h.text m hm id' text' hwhole
          exact ⟨htext', fun x hx => hold x (hsub x hx)⟩
        · rcases htext with rfl | rfl
          · cases hwhole
          · cases hwhole
            refine ⟨hname ▸ (h.opened e hmem).2, fun x hx heq => ?_⟩
            have hne := List.of_mem_filter hx
            simp [heq] at hne
    · cases hsome
  | completed =>
    rw [step] at hstep
    split at hstep
    · cases hstep
    · rename_i hno
      rw [not_or, Bool.not_eq_true, ne_eq, not_not] at hno
      obtain ⟨hopen, hnil⟩ := hno
      cases hstep
      have hpieces : ∀ id', pieces id' (marks ++ [Mark.completed]) = pieces id' marks :=
        fun id' => pieces_append_of rfl marks
      refine ⟨?_, h.ids, h.places, ?_, fun _ => hnil, h.entries, ?_, ?_, ?_, ?_⟩
      · rw [addedItems_append]
        simpa [Mark.addedItem] using h.items
      · have hcount := h.count
        rw [hopen] at hcount
        rw [List.count_append, hcount, List.count_singleton]
        rfl
      · intro x hx
        rw [hpieces]
        exact h.opened x hx
      · rw [doneItems_append, addedItems_append]
        simpa [Mark.addedItem, Mark.doneItem] using h.ended
      · exact announced_append h.announced fun item heq => by cases heq
      · intro m hm id' text' hwhole
        rw [hpieces]
        rw [List.mem_append, List.mem_singleton] at hm
        rcases hm with hm | rfl
        · exact h.text m hm id' text' hwhole
        · cases hwhole

/-- What a run accepts. -/
theorem accepted_run {marks marks' : List (Mark ι)} {t t' : Timeline ι} (h : Accepted marks t)
    (hrun : t.run marks' = some t') : Accepted (marks ++ marks') t' := by
  induction marks' generalizing marks t with
  | nil =>
    rw [run, Option.some.injEq] at hrun
    rw [List.append_nil, ← hrun]
    exact h
  | cons mark marks' ih =>
    rw [run] at hrun
    obtain ⟨u, hu, hrun⟩ := Option.bind_eq_some_iff.mp hrun
    have happend := ih (accepted_step h hu) hrun
    rwa [List.append_assoc, List.singleton_append] at happend

/-- A stream that is accepted to its end is consistent. -/
theorem consistent_of_run {marks : List (Mark ι)} {t : Timeline ι} (hrun : empty.run marks = some t)
    (hcompleted : t.completed = true) : Consistent marks := by
  have h := accepted_run accepted_empty hrun
  rw [List.nil_append] at h
  have hended := h.ended
  rw [h.closed hcompleted, List.map_nil, List.append_nil] at hended
  refine ⟨?_, h.items ▸ h.ids, h.items ▸ h.places, hended, h.announced, fun mark hm id text hwhole =>
    (h.text mark hm id text hwhole).1⟩
  rw [h.count, hcompleted]
  rfl

/-! ## Rules -/

/-- The messages are accepted, these items are open now, and the stream is complete or not. -/
def Reached (marks : List (Mark ι)) (entries : List (Entry ι)) (completed : Bool) : Prop :=
  ∃ t : Timeline ι, empty.run marks = some t ∧ t.opened.Perm entries ∧ t.completed = completed

namespace Reached

variable {marks : List (Mark ι)} {entries : List (Entry ι)} {completed : Bool}

theorem nil : Reached ([] : List (Mark ι)) [] false := ⟨empty, rfl, .nil, rfl⟩

/-- The order of the open items does not matter. -/
theorem perm {entries' : List (Entry ι)} (h : Reached marks entries completed)
    (hperm : entries.Perm entries') : Reached marks entries' completed := by
  obtain ⟨t, hrun, hopened, hcompleted⟩ := h
  exact ⟨t, hrun, hopened.trans hperm, hcompleted⟩

/-- A message that is accepted. -/
theorem step {t t' : Timeline ι} {mark : Mark ι} {entries' : List (Entry ι)} {completed' : Bool}
    (hrun : empty.run marks = some t) (hstep : t.step mark = some t')
    (hopened : t'.opened.Perm entries') (hcompleted : t'.completed = completed') :
    Reached (marks ++ [mark]) entries' completed' := by
  refine ⟨t', ?_, hopened, hcompleted⟩
  rw [run_append, hrun]
  show t.run [mark] = some t'
  rw [run_singleton, hstep]

theorem accepted {t : Timeline ι} (hrun : empty.run marks = some t) : Accepted marks t := by
  have h := accepted_run accepted_empty hrun
  rwa [List.nil_append] at h

theorem added {id : ι} {place : ℕ} (h : Reached marks entries completed) (hopen : completed = false)
    (hid : id ∉ (addedItems marks).map Prod.fst) (hplace : place ∉ (addedItems marks).map Prod.snd) :
    Reached (marks ++ [.added id place]) (⟨id, place, "", false⟩ :: entries) completed := by
  obtain ⟨t, hrun, hopened, hcompleted⟩ := h
  have hitems := (accepted hrun).items
  have hno : ¬ (t.completed = true ∨ id ∈ t.items.map Prod.fst ∨ place ∈ t.items.map Prod.snd) := by
    rw [hitems, hcompleted, hopen]
    rintro (h | h | h)
    · cases h
    · exact hid h
    · exact hplace h
  have hstep : t.step (.added id place)
      = some { t with items := t.items ++ [(id, place)], opened := t.opened ++ [⟨id, place, "", false⟩] } := by
    rw [Timeline.step, if_neg hno]
  refine step hrun hstep ?_ hcompleted
  exact (List.perm_append_singleton _ _).trans (hopened.cons _)

/-- An item that is open is found. -/
theorem find {t : Timeline ι} {e : Entry ι} (hrun : empty.run marks = some t)
    (hopened : t.opened.Perm (e :: entries)) : t.find e.id = some e :=
  find_of_mem (accepted hrun).entries (hopened.mem_iff.mpr List.mem_cons_self)

/-- The other open items have other names. -/
theorem ne_of_mem {t : Timeline ι} {e x : Entry ι} (hrun : empty.run marks = some t)
    (hopened : t.opened.Perm (e :: entries)) (hx : x ∈ entries) : x.id ≠ e.id := by
  have hnodup : ((e :: entries).map Entry.id).Nodup :=
    (hopened.map Entry.id).nodup_iff.mp (accepted hrun).entries
  rw [List.map_cons, List.nodup_cons] at hnodup
  exact fun heq => hnodup.1 (heq ▸ List.mem_map_of_mem hx)

/-- A change of one open item. -/
theorem perm_update {t : Timeline ι} {e : Entry ι} {f : Entry ι → Entry ι}
    (hrun : empty.run marks = some t) (hopened : t.opened.Perm (e :: entries)) :
    (t.update e.id f).opened.Perm (f e :: entries) := by
  have hothers : entries.map (fun x => if x.id = e.id then f x else x) = entries := by
    conv_rhs => rw [← List.map_id entries]
    refine List.map_congr_left fun x hx => ?_
    rw [if_neg (ne_of_mem hrun hopened hx)]
    rfl
  have hperm := hopened.map fun x => if x.id = e.id then f x else x
  rw [List.map_cons, if_pos rfl, hothers] at hperm
  exact hperm

theorem delta {id : ι} {place : ℕ} {text : String}
    (h : Reached marks (⟨id, place, text, false⟩ :: entries) completed) (piece : String) :
    Reached (marks ++ [.delta id place piece]) (⟨id, place, text ++ piece, false⟩ :: entries)
      completed := by
  obtain ⟨t, hrun, hopened, hcompleted⟩ := h
  have hstep : t.step (.delta id place piece)
      = some (t.update id fun e => { e with text := e.text ++ piece }) := by
    rw [Timeline.step, find hrun hopened, Option.bind_some, if_pos ⟨rfl, rfl⟩]
  exact step hrun hstep (perm_update hrun hopened) hcompleted

theorem final {id : ι} {place : ℕ} {text : String} {whole : Bool}
    (h : Reached marks (⟨id, place, text, whole⟩ :: entries) completed) :
    Reached (marks ++ [.final id place text]) (⟨id, place, text, true⟩ :: entries) completed := by
  obtain ⟨t, hrun, hopened, hcompleted⟩ := h
  have hstep : t.step (.final id place text) = some (t.update id fun e => { e with whole := true }) := by
    rw [Timeline.step, find hrun hopened, Option.bind_some, if_pos ⟨rfl, rfl⟩]
  exact step hrun hstep (perm_update hrun hopened) hcompleted

theorem done {id : ι} {place : ℕ} {text : String} {whole : Bool}
    (h : Reached marks (⟨id, place, text, whole⟩ :: entries) completed) {repeated : Option String}
    (hrepeated : repeated = none ∨ repeated = some text) :
    Reached (marks ++ [.done id place repeated]) entries completed := by
  obtain ⟨t, hrun, hopened, hcompleted⟩ := h
  have hstep : t.step (.done id place repeated)
      = some { t with opened := t.opened.filter fun e => e.id ≠ id } := by
    rw [Timeline.step, find hrun hopened, Option.bind_some, if_pos ⟨rfl, hrepeated⟩]
  refine step hrun hstep ?_ hcompleted
  have hothers : entries.filter (fun x => x.id ≠ id) = entries := by
    rw [List.filter_eq_self]
    intro x hx
    simpa using ne_of_mem hrun hopened hx
  have hperm := hopened.filter fun x => x.id ≠ id
  rw [List.filter_cons_of_neg (by simp), hothers] at hperm
  exact hperm

theorem completed_nil (h : Reached marks [] completed) (hopen : completed = false) :
    Reached (marks ++ [.completed]) [] true := by
  obtain ⟨t, hrun, hopened, hcompleted⟩ := h
  have hnil : t.opened = [] := hopened.eq_nil
  have hstep : t.step .completed = some { t with completed := true } := by
    rw [Timeline.step, if_neg]
    rintro (h | h)
    · rw [hcompleted, hopen] at h
      cases h
    · exact h hnil
  exact step hrun hstep hopened rfl

theorem consistent (h : Reached marks entries true) : Consistent marks := by
  obtain ⟨t, hrun, -, hcompleted⟩ := h
  exact consistent_of_run hrun hcompleted

end Reached

end Timeline
