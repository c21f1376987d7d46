import Phrasebook.Proofs.Branching
import Phrasebook.Proofs.Entrywise

/-!
# Reading a corpus back

Expansion brings no character into a phrase but those of the template and the space between tokens
(`mem_of_mem_expand`). So a line of the corpus ends where it is meant to end, and a corpus whose
names have no space or line feed and whose templates have no line feed tells its intents and
phrases without ambiguity (`corpus_reads_back`).
-/

namespace Phrasebook

namespace Template

lemma mem_of_mem_normalize {c : CodePoint} {s : Text} (h : c ∈ normalize s) : c ∈ s := by
  fun_induction normalize s with
  | case1 => exact h
  | case2 s w rest hlone ih =>
    rw [(loneWord?_eq_some hlone).1]
    rcases List.mem_append.1 h with hw | hrest
    · simp [hw]
    · simp [ih hrest]
  | case3 s _ ih =>
    rcases List.mem_cons.1 h with rfl | hs
    · exact List.mem_cons_self
    · exact List.mem_cons_of_mem _ (ih hs)
  | case4 d s _ ih =>
    rcases List.mem_cons.1 h with rfl | hs
    · exact List.mem_cons_self
    · exact List.mem_cons_of_mem _ (ih hs)

lemma Reads.mem_of_mem_text {s : Text} {ts : List Token} (h : Reads s ts) {t : Token} (ht : t ∈ ts)
    {c : CodePoint} (hc : c ∈ t.text) : c ∈ s := by
  induction h with
  | nil => simp at ht
  | blank _ _ ih => exact List.mem_cons_of_mem _ (ih ht)
  | word _ _ _ _ ih =>
    rcases List.mem_cons.1 ht with rfl | ht
    · exact List.mem_append_left _ hc
    · exact List.mem_append_right _ (ih ht)
  | group _ _ ih =>
    rcases List.mem_cons.1 ht with rfl | ht
    · exact List.mem_append_left _ hc
    · exact List.mem_append_right _ (ih ht)

lemma mem_unwords {c : CodePoint} {ws : List Text} (h : c ∈ Text.unwords ws) :
    c = ' ' ∨ ∃ w ∈ ws, c ∈ w := by
  simpa using Text.mem_intercalate h

/-- A substitution has only characters of its group. -/
lemma Token.IsGroup.mem_of_mem_branch {t : Token} (ht : t.IsGroup) (hx : t.expandable = true)
    {subs : Choices (Option Text)} (hs : t.branches = .ok subs) {s : Text}
    (hsub : some s ∈ subs.toList) {c : CodePoint} (hc : c ∈ s) : c ∈ t.text := by
  cases ht with
  | curly => simp [expandable] at hx
  | alternation =>
    have hw := mem_alternatives_of_alternation rfl hs hsub
    exact Text.mem_of_mem_inside (mem_of_mem_alternatives hw hc)
  | @slot choices name hchoices _ =>
    obtain ⟨w, hw, heq⟩ := exists_alternative_of_slot rfl hs hsub
    rw [inside_enclose, slotParts_eq (not_mem_of_forall hchoices rfl)] at hw heq
    obtain rfl := Option.some.inj heq
    have hin : c = '\x7b' ∨ c ∈ w ∨ c ∈ name ∨ c = '\x7d' := by simpa [or_assoc] using hc
    rcases hin with rfl | hcw | hcname | rfl
    · simp
    · simp [mem_of_mem_alternatives hw hcw]
    · simp [hcname]
    · simp

lemma Leftmost.mem_of_mem_substitute {template : Text} {head tail : List Token} {t : Token}
    (h : Leftmost template head t tail) {subs : Choices (Option Text)}
    (hs : t.branches = .ok subs) {sub : Option Text} (hsub : sub ∈ subs.toList) {c : CodePoint}
    (hc : c ∈ substitute head sub tail) : c ∈ template ∨ c = ' ' := by
  have htoken : ∀ u ∈ head ++ t :: tail, ∀ d ∈ u.text, d ∈ template := fun u hu d hd =>
    mem_of_mem_normalize (h.reads.mem_of_mem_text hu hd)
  rcases mem_unwords hc with hspace | ⟨w, hw, hcw⟩
  · exact .inr hspace
  · left
    rcases List.mem_append.1 hw with hw | hw
    · rcases List.mem_append.1 hw with hw | hw
      · obtain ⟨u, hu, rfl⟩ := List.mem_map.1 hw
        exact htoken u (by simp [hu]) c hcw
      · obtain rfl := Option.mem_toList.1 hw
        exact htoken t (by simp) c (h.isGroup.mem_of_mem_branch h.expandable hs hsub hcw)
    · obtain ⟨u, hu, rfl⟩ := List.mem_map.1 hw
      exact htoken u (by simp [hu]) c hcw

/-- Expansion brings in no character but the space. -/
theorem mem_of_mem_expand {template : Text} {ps : List Text} (h : expand template = .ok ps)
    {p : Text} (hp : p ∈ ps) {c : CodePoint} (hc : c ∈ p) : c ∈ template ∨ c = ' ' := by
  induction template using branch_induction generalizing ps with
  | step template ih =>
    have hstep := branch_step template
    generalize hbranch : branch template = result at hstep
    cases hstep with
    | unreadable | stuck => simp [expand_of_error hbranch] at h
    | phrase =>
      obtain rfl := Except.ok.inj ((expand_of_phrase hbranch).symm.trans h)
      obtain rfl := List.mem_singleton.1 hp
      exact .inl (mem_of_mem_normalize hc)
    | @templates head tail t subs hleft hs =>
      obtain ⟨u, hu, qs, hexpand, hpq⟩ := exists_of_mem_expand hbranch h hp
      rcases ih _ hbranch u hu hexpand hpq with hcu | hspace
      · rw [Choices.toList_map] at hu
        obtain ⟨sub, hsub, rfl⟩ := List.mem_map.1 hu
        exact hleft.mem_of_mem_substitute hs hsub hcu
      · exact .inr hspace

end Template

namespace Corpus

/-- The phrases of a row of templates, in order. -/
def rowPhrases (ds : List Datum) : List Text :=
  ds.flatMap templatePhrases

/-- The pairs of intent and phrase of a mapping, by entry, template and branch. -/
def pairs (entries : Entries) : List (Text × Text) :=
  entries.flatMap (entryPairs rowPhrases)

lemma entryLines_eq (e : Key × Datum) :
    entryLines e = (entryPairs rowPhrases e).map fun p => line p.1 p.2 := by
  cases entryKind e with
  | @intent name value ds h =>
    have hlines : templateLines name = fun d => (templatePhrases d).map (line name) :=
      funext (templateLines_eq name)
    rw [entryLines, h, Option.getD_some, hlines, ← List.map_flatMap, entryPairs_of_intent h,
      List.map_map]
    rfl
  | shapeless h => rw [entryLines, h, entryPairs_of_shapeless h]; rfl
  | nameless h => rw [entryLines_of_nameless h, entryPairs_of_nameless h]; rfl

/-- The pairs of an entry that is judged. -/
def Outcome.pairs : Outcome → List (Text × Text)
  | skipped _ => []
  | kept s => s.phrases.map fun p => (s.name, p)

lemma pairs_of_entry (file : Option Text) (e : Key × Datum) :
    (Outcome.ofEntry file e).pairs = entryPairs rowPhrases e := by
  cases entryKind e with
  | @intent name value ds h =>
    rw [ofEntry_of_intent file h, entryPairs_of_intent h, Outcome.pairs, results,
      phrases_of_row file (templatePath (.text name) value)]
    rfl
  | shapeless h => rw [ofEntry_of_shapeless file h, entryPairs_of_shapeless h]; rfl
  | nameless h => rw [ofEntry_of_nameless file h, entryPairs_of_nameless h]; rfl

lemma length_phrases (o : Outcome) : o.phrases.length = o.pairs.length := by
  cases o with
  | skipped => rfl
  | kept s => simp [Outcome.phrases, Outcome.pairs]

lemma lineCount_map (file : Option Text) (entries : Entries) :
    (build file (.map entries)).lineCount = (pairs entries).length := by
  cases entries with
  | nil => rfl
  | cons e entries =>
    rw [build_map file (List.cons_ne_nil e entries), Report.ofOutcomes, List.map_map, pairs,
      List.length_flatMap]
    simp only [Function.comp_def, length_phrases, pairs_of_entry]
    rfl

/-- The lines of a text that are not empty. -/
def lines (s : Text) : List Text :=
  (s.splitOn (char '\n')).filter (· ≠ [])

/-- What stands before the first space of a line, and what stands behind it. -/
def splitAtSpace? (l : Text) : Option (Text × Text) :=
  match l.dropWhile (· ≠ char ' ') with
  | [] => none
  | _ :: rest => some (l.takeWhile (· ≠ ' '), rest)

lemma splitAtSpace?_append {name : Text} (h : char ' ' ∉ name) (phrase : Text) :
    splitAtSpace? (name ++ char ' ' :: phrase) = some (name, phrase) := by
  have hname : ∀ c ∈ name, decide (c ≠ ' ') = true := by
    intro c hc
    rw [decide_eq_true_eq]
    rintro rfl
    exact h hc
  unfold splitAtSpace?
  rw [List.takeWhile_append_of_pos hname, List.dropWhile_append_of_pos hname]
  simp

lemma lines_append_feed (s t : Text) : lines (s ++ char '\n' :: t) = lines s ++ lines t := by
  rw [lines, List.splitOn_append_cons_self, List.filter_append]
  rfl

lemma lines_feed (s : Text) : lines (char '\n' :: s) = lines s :=
  lines_append_feed [] s

lemma lines_eq_singleton {l : Text} (hne : l ≠ []) (hl : char '\n' ∉ l) : lines l = [l] := by
  simp [lines, List.splitOn_eq_singleton hl, hne]

/-- Each line that is written ends in a line feed, so it is read apart from what follows. -/
lemma lines_append (ps : List (Text × Text)) (s : Text) :
    lines ((ps.map fun p => line p.1 p.2).flatten ++ s) =
      (ps.flatMap fun p => lines (p.1 ++ char ' ' :: p.2)) ++ lines s := by
  induction ps with
  | nil => rfl
  | cons p ps ih =>
    have hfirst : ((p :: ps).map fun p => line p.1 p.2).flatten ++ s =
        (p.1 ++ char ' ' :: p.2) ++ char '\n' :: ((ps.map fun p => line p.1 p.2).flatten ++ s) := by
      simp [line]
    rw [hfirst, lines_append_feed, ih, List.flatMap_cons, List.append_assoc]

/-- The empty lines between the entries, wherever they stand, are not read. -/
lemma lines_gapped (entries : Entries) (gap : Nat → Key × Datum → Prop)
    [∀ i e, Decidable (gap i e)] :
    lines (entries.mapIdx fun i e =>
        (entryLines e).flatten ++ if gap i e then [char '\n'] else []).flatten =
      (pairs entries).flatMap fun p => lines (p.1 ++ char ' ' :: p.2) := by
  induction entries generalizing gap with
  | nil => rfl
  | cons e entries ih =>
    have hrest := ih fun i => gap (i + 1)
    rw [List.mapIdx_cons, List.flatten_cons, List.append_assoc, entryLines_eq, lines_append, pairs,
      List.flatMap_cons, List.flatMap_append]
    split_ifs
    · rw [List.singleton_append, lines_feed, hrest]
      rfl
    · rw [List.nil_append, hrest]
      rfl

lemma lines_pairs {ps : List (Text × Text)} (h : ∀ p ∈ ps, char '\n' ∉ p.1 ∧ char '\n' ∉ p.2) :
    (ps.flatMap fun p => lines (p.1 ++ char ' ' :: p.2)) =
      ps.map fun p => p.1 ++ char ' ' :: p.2 := by
  rw [List.map_eq_flatMap]
  refine List.flatMap_congr fun p hp => ?_
  exact lines_eq_singleton (by simp) (by simp [h p hp])

lemma lines_entries {entries : Entries} (h : ∀ p ∈ pairs entries, char '\n' ∉ p.1 ∧ char '\n' ∉ p.2)
    (gap : Nat → Key × Datum → Prop) [∀ i e, Decidable (gap i e)] :
    lines (entries.mapIdx fun i e =>
        (entryLines e).flatten ++ if gap i e then [char '\n'] else []).flatten =
      (pairs entries).map fun p => p.1 ++ char ' ' :: p.2 := by
  rw [lines_gapped, lines_pairs h]

lemma corpus_map (file : Option Text) (entries : Entries) :
    (build file (.map entries)).corpus =
      (entries.mapIdx fun i e => (entryLines e).flatten ++
        if isIntent e ∧ i + 1 < entries.length then [char '\n'] else []).flatten := by
  rw [corpus_eq_layout]
  exact layout_map file entries

/-- The lines of a corpus are those of its pairs, one pair after the other. -/
theorem lines_corpus (file : Option Text) (entries : Entries) :
    lines (build file (.map entries)).corpus =
      (pairs entries).flatMap fun p => lines (p.1 ++ char ' ' :: p.2) := by
  rw [corpus_map, lines_gapped]

/-- A phrase of a template without line feeds has none. -/
lemma line_feed_not_mem_phrase {d : Datum} (h : ∀ t, d = .text t → char '\n' ∉ t) {p : Text}
    (hp : p ∈ templatePhrases d) : char '\n' ∉ p := by
  intro hc
  unfold templatePhrases at hp
  split at hp
  · rename_i t
    split at hp
    · rename_i phrases hexpand
      rw [Request.expand_text] at hexpand
      have hmem := Template.mem_of_mem_expand (Request.eq_ok_of_lift hexpand) hp hc
      exact h t rfl (hmem.resolve_right (by decide))
    · simp at hp
  · simp at hp

lemma mem_pairs {entries : Entries} {p : Text × Text} (hp : p ∈ pairs entries) :
    ∃ value ds d, (.text p.1, value) ∈ entries ∧ templates? value = some ds ∧ d ∈ ds ∧
      p.2 ∈ templatePhrases d := by
  obtain ⟨e, he, hp⟩ := List.mem_flatMap.1 hp
  cases entryKind e with
  | intent h =>
    rw [entryPairs_of_intent h] at hp
    obtain ⟨phrase, hphrase, rfl⟩ := List.mem_map.1 hp
    obtain ⟨d, hd, hphrase⟩ := List.mem_flatMap.1 hphrase
    exact ⟨_, _, d, he, h, hd, hphrase⟩
  | shapeless h => simp [entryPairs_of_shapeless h] at hp
  | nameless h => simp [entryPairs_of_nameless h] at hp

/-- If no name has a space or a line feed in it and no template a line feed, the lines of the corpus
that are not empty, split at their first spaces, are the pairs of intent and phrase, in order. -/
theorem corpus_reads_back (file : Option Text) {entries : Entries}
    (hnames : ∀ name value, (.text name, value) ∈ entries → char ' ' ∉ name ∧ char '\n' ∉ name)
    (htemplates : ∀ name value ds t, (.text name, value) ∈ entries →
      templates? value = some ds → .text t ∈ ds → char '\n' ∉ t) :
    (lines (build file (.map entries)).corpus).map splitAtSpace? = (pairs entries).map some ∧
      (build file (.map entries)).lineCount = (pairs entries).length := by
  have hplain : ∀ p ∈ pairs entries, char ' ' ∉ p.1 ∧ char '\n' ∉ p.1 ∧ char '\n' ∉ p.2 := by
    intro p hp
    obtain ⟨value, ds, d, he, hds, hd, hphrase⟩ := mem_pairs hp
    obtain ⟨hspace, hfeed⟩ := hnames p.1 value he
    refine ⟨hspace, hfeed, line_feed_not_mem_phrase ?_ hphrase⟩
    rintro t rfl
    exact htemplates p.1 value ds t he hds hd
  refine ⟨?_, lineCount_map file entries⟩
  rw [corpus_map, lines_entries fun p hp => (hplain p hp).2, List.map_map]
  exact List.map_congr_left fun p hp => splitAtSpace?_append (hplain p hp).1 p.2

/-- An empty name with an empty phrase, a key that is no text, a row with a template that is not
closed and an item that is no text, and a value that holds no templates. -/
theorem corpus_reads_back_mixed :
    (char ' ' ∉ "b".toText ∧ char '\n' ∉ "b".toText) ∧ char '\n' ∉ "(c  d|)".toText ∧
    (lines (build none (.map [(.text [], .text "(|a)".toText),
        (.scalar (.int 1), .text "x".toText),
        (.text "b".toText, .list [.text "(".toText, .null, .text "(c  d|)".toText]),
        (.text "e".toText, .null)])).corpus).map splitAtSpace? =
      [some ([], "a".toText), some ([], []), some ("b".toText, "c  d".toText),
        some ("b".toText, [])] ∧
    (build none (.map [(.text [], .text "(|a)".toText),
        (.scalar (.int 1), .text "x".toText),
        (.text "b".toText, .list [.text "(".toText, .null, .text "(c  d|)".toText]),
        (.text "e".toText, .null)])).lineCount = 4 := by
  have hpairs : pairs [(.text [], .text "(|a)".toText),
      (.scalar (.int 1), .text "x".toText),
      (.text "b".toText, .list [.text "(".toText, .null, .text "(c  d|)".toText]),
      (.text "e".toText, .null)] =
      [([], "a".toText), ([], []), ("b".toText, "c  d".toText), ("b".toText, [])] := by
    decide +kernel
  have hread := @corpus_reads_back none [(.text [], .text "(|a)".toText),
      (.scalar (.int 1), .text "x".toText),
      (.text "b".toText, .list [.text "(".toText, .null, .text "(c  d|)".toText]),
      (.text "e".toText, .null)] (by simp +contextual [or_imp, forall_and, String.toText]) (by
    intro name value ds t he hds ht
    simp only [List.mem_cons, List.not_mem_nil, or_false, Prod.mk.injEq] at he
    rcases he with ⟨-, rfl⟩ | ⟨-, rfl⟩ | ⟨-, rfl⟩ | ⟨-, rfl⟩ <;> cases hds <;> simp at ht
    · simp [ht, String.toText]
    · simp [ht, String.toText]
    · rcases ht with rfl | rfl <;> decide)
  rw [hpairs] at hread
  exact ⟨by decide, by decide, hread⟩

end Corpus

end Phrasebook
