import Mathlib.Data.List.Count
import Phrasebook.Proofs.Lines
import Phrasebook.Proofs.Quoting
import Phrasebook.Proofs.Remarks

/-!
# What the linter judges

The linter looks at every phrase that a corpus has, and besides at the phrases of the rows inside
the row of an intent, which are no templates to the corpus (`mentions_perm`). A phrase that no inner
row generates is found to be repeated or shared just when the corpus has it twice for one intent or
for two intents (`judged_as_emitted`); for a phrase of inner rows that fails
(`not_judged_as_emitted_of_inner_row`).
-/

namespace Phrasebook

namespace Corpus

/-- The pairs of intent and phrase whose lines a corpus is made of. -/
def emitted (file : Option Text) (entries : Entries) : List (Text × Text) :=
  (entries.map (Outcome.ofEntry file)).flatMap Outcome.pairs

lemma emitted_eq (file : Option Text) (entries : Entries) :
    emitted file entries = pairs entries := by
  rw [emitted, List.flatMap_map, pairs]
  simp only [pairs_of_entry]

end Corpus

namespace Lint

/-- The phrases of an item that is no text, but a row of texts. -/
def innerPhrases : Datum → List Text
  | .text _ => []
  | d => generated [d]

/-- The names of the intents of a mapping with the phrases of the rows inside their rows. -/
def inner (entries : Entries) : List (Text × Text) :=
  entries.flatMap (Corpus.entryPairs fun ds => ds.flatMap innerPhrases)

lemma generated_singleton (d : Datum) :
    generated [d] = Corpus.templatePhrases d ++ innerPhrases d := by
  unfold Corpus.templatePhrases innerPhrases
  split
  · simp only [generated]
    split <;> simp_all [Except.toOption]
  · simp_all

lemma generated_eq (ds : List Datum) : generated ds = ds.flatMap fun d => generated [d] := by
  induction ds with
  | nil => rfl
  | cons d ds ih =>
    rw [List.flatMap_cons, ← ih]
    simp only [generated, List.filterMap_cons]
    split <;> simp_all

lemma generated_perm (ds : List Datum) :
    (generated ds).Perm (Corpus.rowPhrases ds ++ ds.flatMap innerPhrases) := by
  have hitem : (fun d => generated [d]) = fun d => Corpus.templatePhrases d ++ innerPhrases d :=
    funext generated_singleton
  rw [generated_eq, hitem]
  exact (List.flatMap_append_perm ds _ _).symm

lemma entryPairs_perm (e : Key × Datum) :
    (Corpus.entryPairs generated e).Perm (Corpus.entryPairs Corpus.rowPhrases e ++
      Corpus.entryPairs (fun ds => ds.flatMap innerPhrases) e) := by
  cases Corpus.entryKind e with
  | @intent name value ds h =>
    simp only [Corpus.entryPairs_of_intent h, ← List.map_append]
    exact (generated_perm ds).map (Prod.mk name)
  | shapeless h => simp [Corpus.entryPairs_of_shapeless h]
  | nameless h => simp [Corpus.entryPairs_of_nameless h]

theorem mentions_perm (entries : Entries) :
    (mentions entries).Perm (Corpus.pairs entries ++ inner entries) :=
  (List.Perm.flatMap_left entries fun e _ => entryPairs_perm e).trans
    (List.flatMap_append_perm entries _ _).symm

def Issue.phrase? : Issue → Option Text
  | repeated _ phrase _ => some phrase
  | shared phrase _ _ _ => some phrase
  | _ => none

section Findings

variable {file : Option Text} {entries : Entries} {name phrase : Text}

lemma diagnostic_mem_findings {x : Issue} :
    x.diagnostic file ∈ findings file (.map entries) ↔
      ∃ y ∈ met entries, y.diagnostic file = x.diagnostic file := by
  rw [findings_eq, Diagnostic.sort, List.mem_mergeSort, List.mem_map]

lemma diagnostic_inj {x y : Issue} (h : x.diagnostic file = y.diagnostic file) :
    x.kind = y.kind ∧ x.intent = y.intent ∧ x.message = y.message := by
  simp only [Issue.diagnostic, Diagnostic.mk.injEq, Option.some.injEq, true_and] at h
  obtain ⟨hcode, hmessage, hpath⟩ := h
  exact ⟨code_injective hcode, List.append_cancel_left hpath, hmessage⟩

/-- The message of a repeated or a shared phrase quotes it. -/
lemma message_of_phrase {x : Issue} (h : x.phrase? = some phrase) :
    ∃ rest, x.message = "phrase ".toText ++ (Text.quoted phrase ++ rest) := by
  unfold Issue.message
  cases x with
  | repeated name p times =>
    obtain rfl := Option.some.inj h
    simp only [List.append_assoc]
    exact ⟨_, rfl⟩
  | shared p first second more =>
    obtain rfl := Option.some.inj h
    simp only [List.append_assoc]
    exact ⟨_, rfl⟩
  | _ => exact nomatch h

lemma phrase_eq_of_diagnostic_eq {x y : Issue} {p q : Text} (hx : x.phrase? = some p)
    (hy : y.phrase? = some q) (h : x.diagnostic file = y.diagnostic file) : p = q := by
  obtain ⟨rest, hx⟩ := message_of_phrase hx
  obtain ⟨other, hy⟩ := message_of_phrase hy
  have hmessage := (diagnostic_inj h).2.2
  rw [hx, hy] at hmessage
  exact (Text.quoted_append_inj (List.append_cancel_left hmessage)).1

lemma eq_repeated_of_diagnostic_eq {y : Issue} {times : Nat}
    (h : y.diagnostic file = (Issue.repeated name phrase times).diagnostic file) :
    ∃ n, y = .repeated name phrase n := by
  obtain ⟨hkind, hname, -⟩ := diagnostic_inj h
  cases y with
  | repeated other q n =>
    obtain rfl : other = name := hname
    obtain rfl := phrase_eq_of_diagnostic_eq rfl rfl h
    exact ⟨n, rfl⟩
  | _ => exact nomatch hkind

lemma eq_shared_of_diagnostic_eq {y : Issue} {first second : Text} {more : List Text}
    (h : y.diagnostic file = (Issue.shared phrase first second more).diagnostic file) :
    ∃ first second more, y = .shared phrase first second more := by
  have hkind := (diagnostic_inj h).1
  cases y with
  | shared q a b bs =>
    obtain rfl := phrase_eq_of_diagnostic_eq rfl rfl h
    exact ⟨a, b, bs, rfl⟩
  | _ => exact nomatch hkind

/-- A phrase is reported as repeated if an intent generates it twice. -/
theorem repeated_reported_iff (hkeys : entries.DistinctKeys) :
    (∃ times, (Issue.repeated name phrase times).diagnostic file ∈
      findings file (.map entries)) ↔ 2 ≤ (mentions entries).count (name, phrase) := by
  have hcount {i : Intent} (hi : i ∈ intents entries) :
      (mentions entries).count (i.name, phrase) = i.phrases.count phrase := by
    obtain ⟨before, after, hsplit, hbefore, hafter⟩ := mentions_split hkeys hi
    rw [hsplit, List.count_append, List.count_append, List.count_eq_zero.2 (hbefore phrase),
      List.count_eq_zero.2 (hafter phrase),
      List.count_map_of_injective _ _ (Prod.mk_right_injective i.name)]
    omega
  constructor
  · rintro ⟨times, h⟩
    obtain ⟨y, hy, heq⟩ := diagnostic_mem_findings.1 h
    obtain ⟨n, rfl⟩ := eq_repeated_of_diagnostic_eq heq
    cases (mem_met hkeys).1 hy with
    | @repeated name phrase value ds he hds h =>
      have hi : ⟨name, ds, generated ds⟩ ∈ intents entries := mem_intents.2 ⟨value, he, hds, rfl⟩
      exact (hcount hi).symm ▸ h
  · intro h
    have hmem : (name, phrase) ∈ mentions entries := List.count_pos_iff.1 (by omega)
    obtain ⟨i, hi, rfl, -⟩ := mem_mentions.1 hmem
    rw [hcount hi] at h
    obtain ⟨value, he, hds, hphrases⟩ := mem_intents.1 hi
    rw [hphrases] at h
    exact ⟨_, diagnostic_mem_findings.2 ⟨_, (mem_met hkeys).2 (.repeated he hds h), rfl⟩⟩

/-- A phrase is reported as shared if two intents generate it. -/
theorem shared_reported_iff (hkeys : entries.DistinctKeys) :
    (∃ first second more, (Issue.shared phrase first second more).diagnostic file ∈
      findings file (.map entries)) ↔
      ∃ name other, name ≠ other ∧ (name, phrase) ∈ mentions entries ∧
        (other, phrase) ∈ mentions entries := by
  rw [← exists_shared_iff hkeys]
  constructor
  · rintro ⟨a, b, bs, h⟩
    obtain ⟨y, hy, heq⟩ := diagnostic_mem_findings.1 h
    obtain ⟨first, second, more, rfl⟩ := eq_shared_of_diagnostic_eq heq
    exact ⟨first, second, more, hy⟩
  · rintro ⟨first, second, more, h⟩
    exact ⟨first, second, more, diagnostic_mem_findings.2 ⟨_, h, rfl⟩⟩

end Findings

/-- What is reported of a phrase is what the corpus has of it. -/
structure JudgedAsEmitted (file : Option Text) (entries : Entries) (phrase : Text) : Prop where
  repeated_iff : ∀ name, (∃ times, (Issue.repeated name phrase times).diagnostic file ∈
    findings file (.map entries)) ↔ 2 ≤ (Corpus.emitted file entries).count (name, phrase)
  shared_iff : (∃ first second more, (Issue.shared phrase first second more).diagnostic file ∈
    findings file (.map entries)) ↔
      ∃ name other, name ≠ other ∧ (name, phrase) ∈ Corpus.emitted file entries ∧
        (other, phrase) ∈ Corpus.emitted file entries

/-- The linter judges the corpus by the phrases that no inner row generates. -/
theorem judged_as_emitted (file : Option Text) {entries : Entries} (hkeys : entries.DistinctKeys)
    {phrase : Text} (hinner : ∀ name, (name, phrase) ∉ inner entries) :
    JudgedAsEmitted file entries phrase where
  repeated_iff name := by
    rw [repeated_reported_iff hkeys, (mentions_perm entries).count_eq, List.count_append,
      List.count_eq_zero.2 (hinner name), Nat.add_zero, Corpus.emitted_eq]
  shared_iff := by
    rw [shared_reported_iff hkeys, Corpus.emitted_eq]
    simp only [(mentions_perm entries).mem_iff, List.mem_append, hinner, or_false]

/-- A phrase that two intents generate and one of them twice, beside an inner row. -/
def entangledEntries : Entries :=
  [(.text "a".toText, .list [.text "(x|x)".toText, .list [.text "y".toText]]),
    (.text "b".toText, .text "x".toText)]

theorem judged_as_emitted_mixed :
    entangledEntries.DistinctKeys ∧
    (∀ name, (name, "x".toText) ∉ inner entangledEntries) ∧
    JudgedAsEmitted none entangledEntries "x".toText ∧
    Corpus.emitted none entangledEntries =
      [("a".toText, "x".toText), ("a".toText, "x".toText), ("b".toText, "x".toText)] := by
  have hkeys : entangledEntries.DistinctKeys := by decide
  have hrow : inner entangledEntries = [("a".toText, "y".toText)] := by decide +kernel
  have hinner (name : Text) : (name, "x".toText) ∉ inner entangledEntries := by
    rw [hrow, List.mem_singleton, Prod.mk.injEq]
    exact fun h => absurd h.2 (by decide)
  exact ⟨hkeys, hinner, judged_as_emitted none hkeys hinner, by decide +kernel⟩

/-- A phrase of an inner row is reported, and no corpus has it. -/
theorem not_judged_as_emitted_of_inner_row : ¬JudgedAsEmitted none
    [(.text "k".toText, .list [.list [.text "a".toText, .text "a".toText]])] "a".toText := by
  intro h
  have hkeys : Entries.DistinctKeys
      [(.text "k".toText, .list [.list [.text "a".toText, .text "a".toText]])] := by
    decide
  have hmentions :
      (mentions [(.text "k".toText, .list [.list [.text "a".toText, .text "a".toText]])]).count
        ("k".toText, "a".toText) = 2 := by
    decide +kernel
  have hemitted : (Corpus.emitted none
      [(.text "k".toText, .list [.list [.text "a".toText, .text "a".toText]])]).count
        ("k".toText, "a".toText) = 0 := by
    decide +kernel
  have hreported := (h.repeated_iff "k".toText).1 ((repeated_reported_iff hkeys).2 hmentions.ge)
  rw [hemitted] at hreported
  exact absurd hreported (by decide)

end Lint

end Phrasebook
