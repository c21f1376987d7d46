import Phrasebook.Template.Branch

/-!
# Expansion descends

The measure of a template is the number of its opening round brackets. Normalization does not
raise it, the tokens of a text share out the measure of the text, and a substitution has measure
zero where the token that it replaces has at least one bracket. So every template that a step of
expansion leaves is smaller than the template it comes from (`measure_lt_of_branch`).
-/

namespace Phrasebook.Template

/-- The number of opening round brackets of a text. -/
def measure (s : Text) : Nat :=
  s.count (char '(')

theorem measure_append (s t : Text) : measure (s ++ t) = measure s + measure t :=
  List.count_append

@[simp]
theorem measure_nil : measure [] = 0 :=
  rfl

theorem measure_eq_zero {s : Text} (h : ∀ c ∈ s, isBracket c = false) : measure s = 0 := by
  refine List.count_eq_zero.2 fun hc => ?_
  have := h _ hc
  revert this
  decide

theorem measure_unwords (ws : List Text) :
    measure (Text.unwords ws) = measure ws.flatten := by
  induction ws with
  | nil => rfl
  | cons w ws ih =>
    cases ws with
    | nil => simp [Text.unwords, List.intercalate]
    | cons v vs =>
      have : measure [char ' '] = 0 := rfl
      unfold Text.unwords at ih ⊢
      change _ = measure (w ++ (v :: vs).flatten)
      rw [List.intercalate_cons_cons, measure_append, measure_append, ih, measure_append, this]
      omega

theorem measure_normalize_le (s : Text) : measure (normalize s) ≤ measure s := by
  fun_induction normalize s with
  | case1 => simp
  | case2 s w rest h ih =>
    rw [(loneWord?_eq_some h).1]
    simp only [measure, List.count_cons, List.count_append] at ih ⊢
    omega
  | case3 s h ih =>
    simp only [measure, List.count_cons] at ih ⊢
    omega
  | case4 c s hc ih =>
    simp only [measure, List.count_cons] at ih ⊢
    omega

/-- A piece of a text between two separators has no characters of its own. -/
theorem mem_of_mem_splitOn {x c : CodePoint} {s p : Text} (hp : p ∈ s.splitOn x) (hc : c ∈ p) :
    c ∈ s := by
  rw [← @List.intercalate_splitOn _ s _ _ x]
  generalize s.splitOn x = ps at hp
  induction ps with
  | nil => simp at hp
  | cons q qs ih =>
    cases qs with
    | nil => simpa [List.intercalate, List.mem_singleton.1 hp] using hc
    | cons r rs =>
      rw [List.intercalate_cons_cons]
      rcases List.mem_cons.1 hp with rfl | hp
      · simp [hc]
      · simp [ih hp]

theorem mem_of_mem_alternatives {c : CodePoint} {content w : Text} (hw : w ∈ alternatives content)
    (hc : c ∈ w) : c ∈ content := by
  obtain ⟨hw, -⟩ := List.mem_filter.1 hw
  obtain ⟨p, hp, rfl⟩ := List.mem_map.1 hw
  exact mem_of_mem_splitOn hp (Text.mem_of_mem_strip hc)

theorem alternativesOf_eq_ok {group content : Text} {ws : Choices Text}
    (h : alternativesOf group content = .ok ws) : ws.toList = alternatives content := by
  unfold alternativesOf at h
  split at h
  · simp at h
  · rename_i heq
    obtain rfl := Except.ok.inj h
    exact heq.symm

/-- What the judge of a closed group accepts: a round group with no bracket inside, or a curly one
whose alternatives and name have none. -/
theorem Token.ofGroup_eq_ok {template text : Text} {t : Token}
    (h : Token.ofGroup template text = .ok t) :
    t.text = text ∧
      (t.kind = .alternation → text.head? = some '(' ∧ (Text.inside text).any isBracket = false) ∧
      (t.kind = .slot → char '(' ∈ Text.inside text ∧
        (slotParts (Text.inside text)).1.any isBracket = false ∧
        (slotParts (Text.inside text)).2.any isBracket = false) := by
  unfold Token.ofGroup at h
  split at h
  · rename_i hround
    split at h
    · simp at h
    · rename_i hin
      obtain rfl : (⟨.alternation, text⟩ : Token) = t := by simpa using h
      exact ⟨rfl, fun _ => ⟨hround, by simpa using hin⟩, by simp⟩
  · split at h
    · rename_i hparen
      split at h
      · rename_i hslot
        obtain rfl : (⟨.slot, text⟩ : Token) = t := by simpa using h
        exact ⟨rfl, by simp, fun _ => ⟨hparen, by simpa using hslot.2⟩⟩
      · simp at h
    · obtain rfl : (⟨.word, text⟩ : Token) = t := by simpa using h
      exact ⟨rfl, by simp, by simp⟩

theorem Except.bind_eq_ok {ε α β : Type} {x : Except ε α} {f : α → Except ε β} {b : β}
    (h : x >>= f = .ok b) : ∃ a, x = .ok a ∧ f a = .ok b := by
  cases x with
  | error e => simp [Bind.bind, Except.bind] at h
  | ok a => exact ⟨a, rfl, h⟩

theorem flatMap_text_ofRun (run : Text) : (Token.ofRun run).flatMap (·.text) = run := by
  cases run <;> simp [Token.ofRun]

theorem not_expandable_of_mem_ofRun {run : Text} {t : Token} (h : t ∈ Token.ofRun run) :
    t.expandable = false := by
  cases run with
  | nil => simp [Token.ofRun] at h
  | cons c run =>
    obtain rfl : t = ⟨.word, c :: run⟩ := by simpa [Token.ofRun] using h
    rfl

theorem measure_flatMap_ofRun_append (run : Text) (ts : List Token) :
    measure ((Token.ofRun run ++ ts).flatMap (·.text)) =
      measure run + measure (ts.flatMap (·.text)) := by
  rw [List.flatMap_append, flatMap_text_ofRun, measure_append]

theorem measure_cons_of_blank {c : CodePoint} (s : Text) (h : Text.isBlank c = true) :
    measure (c :: s) = measure s := by
  have hc : c ≠ '(' := by
    rintro rfl
    exact absurd h (by decide)
  simp [measure, hc]

theorem measure_append_singleton (s t : Text) (c : CodePoint) :
    measure (s ++ [c]) + measure t = measure s + measure (c :: t) := by
  rw [← List.singleton_append (l := t), measure_append, measure_append]
  omega

/-- The tokens of a text share out its opening round brackets. -/
theorem measure_scan {template held s : Text} {column : Nat} {opened : List Opening}
    {ts : List Token} (h : scan template column held opened s = .ok ts) :
    measure (ts.flatMap (·.text)) = measure held + measure s := by
  fun_induction scan template column held opened s generalizing ts with
  | case1 column run =>
    obtain rfl : Token.ofRun run = ts := by simpa using h
    rw [flatMap_text_ofRun]
    simp [measure]
  | case2 => simp at h
  | case3 column held c rest s hb ih =>
    obtain ⟨us, hus, h⟩ := Except.bind_eq_ok h
    obtain rfl : Token.ofRun held ++ us = ts := by simpa using h
    rw [measure_flatMap_ofRun_append, ih hus, ← measure_append, List.singleton_append]
  | case4 => simp at h
  | case5 column held c rest hb hc ih =>
    obtain ⟨us, hus, h⟩ := Except.bind_eq_ok h
    obtain rfl : Token.ofRun held ++ us = ts := by simpa using h
    rw [measure_flatMap_ofRun_append, ih hus, measure_cons_of_blank rest hc]
    simp [measure]
  | case6 column held c rest hb hc ih => rw [ih h, measure_append_singleton]
  | case7 column held o outer c rest s hb ih => rw [ih h, measure_append_singleton]
  | case8 column held o c rest hb ih =>
    obtain ⟨t, ht, h⟩ := Except.bind_eq_ok h
    obtain ⟨us, hus, h⟩ := Except.bind_eq_ok h
    obtain rfl : t :: us = ts := by simpa using h
    rw [List.flatMap_cons, measure_append, ih hus, (Token.ofGroup_eq_ok ht).1,
      ← measure_append_singleton]
    simp [measure]
  | case9 column held o c rest o' outer hb ih => rw [ih h, measure_append_singleton]
  | case10 => simp at h
  | case11 column held o outer c rest hb ih => rw [ih h, measure_append_singleton]

/-- An expandable token of a text is a group that was judged there. -/
theorem exists_ofGroup_of_scan {template held s : Text} {column : Nat} {opened : List Opening}
    {ts : List Token} (h : scan template column held opened s = .ok ts) {t : Token} (ht : t ∈ ts)
    (hx : t.expandable = true) : ∃ text, Token.ofGroup template text = .ok t := by
  fun_induction scan template column held opened s generalizing ts with
  | case1 column run =>
    obtain rfl : Token.ofRun run = ts := by simpa using h
    simp [not_expandable_of_mem_ofRun ht] at hx
  | case2 => simp at h
  | case3 column held c rest s hb ih =>
    obtain ⟨us, hus, h⟩ := Except.bind_eq_ok h
    obtain rfl : Token.ofRun held ++ us = ts := by simpa using h
    rcases List.mem_append.1 ht with ht | ht
    · simp [not_expandable_of_mem_ofRun ht] at hx
    · exact ih hus ht
  | case4 => simp at h
  | case5 column held c rest hb hc ih =>
    obtain ⟨us, hus, h⟩ := Except.bind_eq_ok h
    obtain rfl : Token.ofRun held ++ us = ts := by simpa using h
    rcases List.mem_append.1 ht with ht | ht
    · simp [not_expandable_of_mem_ofRun ht] at hx
    · exact ih hus ht
  | case6 column held c rest hb hc ih => exact ih h ht
  | case7 column held o outer c rest s hb ih => exact ih h ht
  | case8 column held o c rest hb ih =>
    obtain ⟨u, hu, h⟩ := Except.bind_eq_ok h
    obtain ⟨us, hus, h⟩ := Except.bind_eq_ok h
    obtain rfl : u :: us = ts := by simpa using h
    rcases List.mem_cons.1 ht with rfl | ht
    · exact ⟨_, hu⟩
    · exact ih hus ht
  | case9 column held o c rest o' outer hb ih => exact ih h ht
  | case10 => simp at h
  | case11 column held o outer c rest hb ih => exact ih h ht

theorem splitAtExpandable_eq_some {ts head tail : List Token} {t : Token}
    (h : splitAtExpandable ts = some (head, t, tail)) :
    ts = head ++ t :: tail ∧ t.expandable = true ∧ ∀ u ∈ head, u.expandable = false := by
  induction ts generalizing head with
  | nil => simp [splitAtExpandable] at h
  | cons u us ih =>
    unfold splitAtExpandable at h
    split at h
    · rename_i hu
      obtain ⟨rfl, rfl, rfl⟩ : [] = head ∧ u = t ∧ us = tail := by simpa using h
      exact ⟨rfl, hu, by simp⟩
    · rename_i hu
      obtain ⟨⟨head', t', tail'⟩, h', heq⟩ := Option.map_eq_some_iff.1 h
      obtain ⟨rfl, rfl, rfl⟩ : u :: head' = head ∧ t' = t ∧ tail' = tail := by simpa using heq
      obtain ⟨hts, ht, hhead⟩ := ih h'
      refine ⟨by rw [hts]; rfl, ht, ?_⟩
      intro v hv
      rcases List.mem_cons.1 hv with rfl | hv
      · simpa using hu
      · exact hhead v hv

theorem any_isBracket_eq_false {s : Text} (h : s.any isBracket = false) :
    ∀ c ∈ s, isBracket c = false := by
  simpa using h

/-- A substitution of a round group is one of its alternatives. -/
theorem mem_alternatives_of_alternation {t : Token} (hk : t.kind = .alternation)
    {subs : Choices (Option Text)} (hs : t.branches = .ok subs) {s : Text}
    (hsub : some s ∈ subs.toList) : s ∈ alternatives (Text.inside t.text) := by
  simp only [Token.branches, hk] at hs
  obtain ⟨ws, hws, hs⟩ := Except.bind_eq_ok hs
  rw [← alternativesOf_eq_ok hws]
  split at hs <;> obtain rfl := Except.ok.inj hs
  · obtain rfl : s = ws.first := by simpa [Choices.toList] using hsub
    exact List.mem_cons_self
  · rw [Choices.toList_map] at hsub
    simpa using hsub

/-- A substitution of a slot is the slot with one of its alternatives in place of all of them. -/
theorem exists_alternative_of_slot {t : Token} (hk : t.kind = .slot)
    {subs : Choices (Option Text)} (hs : t.branches = .ok subs) {sub : Option Text}
    (hsub : sub ∈ subs.toList) :
    ∃ w ∈ alternatives (slotParts (Text.inside t.text)).1,
      sub = some (char '\x7b' :: w ++ (slotParts (Text.inside t.text)).2 ++ [char '\x7d']) := by
  simp only [Token.branches, hk] at hs
  obtain ⟨ws, hws, hs⟩ := Except.bind_eq_ok hs
  obtain rfl := Except.ok.inj hs
  rw [← alternativesOf_eq_ok hws]
  rw [Choices.toList_map] at hsub
  obtain ⟨w, hw, rfl⟩ := List.mem_map.1 hsub
  exact ⟨w, hw, rfl⟩

/-- A substitution of a judged group has no opening round bracket, and the group has one. -/
theorem measure_branch_lt {template text : Text} {t : Token}
    (hg : Token.ofGroup template text = .ok t) (hx : t.expandable = true)
    {subs : Choices (Option Text)} (hs : t.branches = .ok subs) {sub : Option Text}
    (hsub : sub ∈ subs.toList) : measure sub.toList.flatten < measure t.text := by
  obtain ⟨htext, halt, hslot⟩ := Token.ofGroup_eq_ok hg
  rw [← htext] at halt hslot
  cases hk : t.kind with
  | word => simp [Token.expandable, hk] at hx
  | slot =>
    obtain ⟨hparen, hchoices, hname⟩ := hslot hk
    have hpos : 0 < measure t.text := List.count_pos_iff.2 (Text.mem_of_mem_inside hparen)
    obtain ⟨w, hw, rfl⟩ := exists_alternative_of_slot hk hs hsub
    have hw0 : measure w = 0 := measure_eq_zero fun c hc =>
      any_isBracket_eq_false hchoices c (mem_of_mem_alternatives hw hc)
    have hn0 : measure (slotParts (Text.inside t.text)).2 = 0 :=
      measure_eq_zero (any_isBracket_eq_false hname)
    have :
        measure (char '\x7b' :: w ++ (slotParts (Text.inside t.text)).2 ++ [char '\x7d']) = 0 := by
      rw [measure_append, measure_append, hn0, ← List.singleton_append, measure_append, hw0]
      decide
    rw [Option.toList, List.flatten_singleton, this]
    exact hpos
  | alternation =>
    obtain ⟨hhead, hin⟩ := halt hk
    have hpos : 0 < measure t.text := List.count_pos_iff.2 (List.mem_of_mem_head? hhead)
    cases sub with
    | none => simpa using hpos
    | some w =>
      have hw := mem_alternatives_of_alternation hk hs hsub
      have : measure w = 0 := measure_eq_zero fun c hc =>
        any_isBracket_eq_false hin c (mem_of_mem_alternatives hw hc)
      simpa [this] using hpos

/-- Every template that a step of expansion leaves is smaller than the one it comes from. -/
theorem measure_lt_of_branch {template : Text} {ts : Choices Text}
    (h : branch template = .ok (.templates ts)) {u : Text} (hu : u ∈ ts.toList) :
    measure u < measure template := by
  unfold branch at h
  obtain ⟨tokens, htokens, h⟩ := Except.bind_eq_ok h
  split at h
  · simp at h
  · rename_i head t tail hsplit
    obtain ⟨subs, hsubs, h⟩ := Except.bind_eq_ok h
    obtain rfl : subs.map (fun sub => substitute head sub tail) = ts := by simpa using h
    rw [Choices.toList_map] at hu
    obtain ⟨sub, hsub, rfl⟩ := List.mem_map.1 hu
    obtain ⟨rfl, hx, -⟩ := splitAtExpandable_eq_some hsplit
    obtain ⟨text, hg⟩ := exists_ofGroup_of_scan htokens (by simp : t ∈ head ++ t :: tail) hx
    have hlt := measure_branch_lt hg hx hsubs hsub
    have htotal := measure_scan htokens
    have hle := measure_normalize_le template
    rw [measure_nil, List.flatMap_append, List.flatMap_cons, measure_append, measure_append]
      at htotal
    rw [substitute, measure_unwords, List.flatten_append, List.flatten_append, measure_append,
      measure_append, ← List.flatMap_def, ← List.flatMap_def]
    omega

end Phrasebook.Template
