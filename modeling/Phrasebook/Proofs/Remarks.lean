import Mathlib.Data.List.Induction
import Mathlib.Data.Prod.Basic
import Phrasebook.Proofs.Issues
import Phrasebook.Proofs.Sorting
import Phrasebook.Proofs.Tables

/-!
# The remarks on a mapping

The linter goes through a mapping once and sorts what it has met. Its findings are the diagnostics
of exactly the issues of the mapping, each once, by file, path and code and then by what is
generated first (`findings_exact`).
-/

namespace Phrasebook.Lint

lemma idxOf_map {α β : Type} [BEq α] [LawfulBEq α] [BEq β] [LawfulBEq β] {f : α → β}
    (hf : f.Injective) (l : List α) (a : α) : (l.map f).idxOf (f a) = l.idxOf a := by
  induction l with
  | nil => rfl
  | cons b l ih =>
    rw [List.map_cons, List.idxOf_cons, List.idxOf_cons, ih, hf.beq_eq]

def nameIssues (i : Intent) : List Issue :=
  if i.name = [] ∨ i.name.any Text.isBlank then [.blankName i.name] else []

def emptyIssues (i : Intent) : List Issue :=
  if i.templates = [] then [.noTemplates i.name] else []

def repeatedIssue? (name p : Text) (n : Nat) : Option Issue :=
  if 1 < n then some (.repeated name p n) else none

def repeatedIssues (i : Intent) : List Issue :=
  i.phrases.eraseDups.filterMap fun p => repeatedIssue? i.name p (i.phrases.count p)

/-- The names of the intents that generate a phrase. -/
def owners (is : List Intent) (p : Text) : List Text :=
  (is.filter fun i => i.phrases.contains p).map (·.name)

def sharedIssue? (is : List Intent) (p : Text) : Option Issue :=
  match owners is p with
  | first :: second :: more => some (.shared p first second more)
  | _ => none

def ownIssues (i : Intent) : List Issue :=
  nameIssues i ++ emptyIssues i ++ repeatedIssues i

def sharedIssues (is : List Intent) : List Issue :=
  (is.flatMap (·.phrases)).eraseDups.filterMap (sharedIssue? is)

/-- The issues in the order in which they are met. -/
def met (entries : Entries) : List Issue :=
  (intents entries).flatMap ownIssues ++ sharedIssues (intents entries)

/-- An intent with each of its phrases, where the intent generates it first. -/
def firstMentions (i : Intent) : List (Text × Text) :=
  i.phrases.eraseDups.map (Prod.mk i.name)

section Pass

variable (file : Option Text)

/-- Notes that an intent generates a phrase. -/
def own (table : List (Text × List Text)) (mention : Text × Text) : List (Text × List Text) :=
  update (fun names => names.getD [] ++ [mention.1]) mention.2 table

/-- What has been remarked and noted, after these issues and mentions. -/
def Findings.after (f : Findings) (issues : List Issue) (ms : List (Text × Text)) : Findings :=
  ⟨f.errors ++ issues.map (Issue.diagnostic file), ms.foldl own f.owners⟩

lemma Findings.after_after (f : Findings) (xs ys : List Issue) (ms ns : List (Text × Text)) :
    (f.after file xs ms).after file ys ns = f.after file (xs ++ ys) (ms ++ ns) := by
  simp [after]

lemma foldl_phrasesStep (ps : List Text) (ds : List Datum) :
    ds.foldl phrasesStep ps = ps ++ generated ds := by
  induction ds generalizing ps with
  | nil => simp [generated]
  | cons d ds ih =>
    rw [List.foldl_cons, ih, phrasesStep, generated, generated]
    cases h : Request.expand d <;> simp [h, Except.toOption]

lemma phraseStep_eq (name p : Text) (n : Nat) (f : Findings) :
    phraseStep file name f (p, n) = f.after file (repeatedIssue? name p n).toList [(name, p)] := by
  unfold phraseStep repeatedIssue?
  by_cases h : 1 < n
  · simp only [h, if_true]
    rfl
  · simp only [h, if_false]
    simp [Findings.after, own]

lemma foldl_phraseStep (name : Text) (n : Text → Nat) (phrases : List Text) (f : Findings) :
    (phrases.map fun p => (p, n p)).foldl (phraseStep file name) f =
      f.after file (phrases.filterMap fun p => repeatedIssue? name p (n p))
        (phrases.map (Prod.mk name)) := by
  induction phrases generalizing f with
  | nil => simp [Findings.after]
  | cons p phrases ih =>
    rw [List.map_cons, List.foldl_cons, phraseStep_eq, ih, Findings.after_after, List.map_cons,
      List.filterMap_cons]
    cases repeatedIssue? name p (n p) <;> rfl

/-- At an entry the pass meets the issues of its intent, and notes its phrases. -/
lemma entryStep_eq (f : Findings) (e : Key × Datum) :
    entryStep file f e = match Intent.ofEntry? e with
      | some i => f.after file (ownIssues i) (firstMentions i)
      | none => f := by
  cases Corpus.entryKind e with
  | @intent name value ds h =>
    have hname : (if name = [] ∨ name.any Text.isBlank then f.add (nameRemark file name) else f) =
        f.after file (nameIssues ⟨name, ds, generated ds⟩) [] := by
      unfold nameIssues
      split
      · rfl
      · simp [Findings.after]
    rw [ofEntry?_of_intent h]
    simp only [entryStep, h, hname, foldl_phrasesStep, List.nil_append, counts_eq, foldl_phraseStep,
      ownIssues, emptyIssues]
    split
    · rename_i hds
      subst hds
      simp [Findings.add, Findings.after, firstMentions, repeatedIssues, generated]
      rfl
    · rw [Findings.after_after]
      simp [repeatedIssues, firstMentions]
  | shapeless h => simp only [ofEntry?_of_shapeless h, entryStep, h]
  | nameless h =>
    rw [ofEntry?_of_nameless h]
    unfold entryStep
    split
    · rename_i hkey _
      exact absurd hkey (h _)
    · rfl

lemma foldl_entryStep (entries : Entries) (f : Findings) :
    entries.foldl (entryStep file) f =
      f.after file ((intents entries).flatMap ownIssues)
        ((intents entries).flatMap firstMentions) := by
  induction entries generalizing f with
  | nil => simp [intents, Findings.after]
  | cons e entries ih =>
    rw [List.foldl_cons, ih, entryStep_eq, intents, intents, List.filterMap_cons]
    cases Intent.ofEntry? e with
    | none => rfl
    | some i => exact Findings.after_after file f _ _ _ _

end Pass

lemma filter_firstMentions (i : Intent) (p : Text) :
    (firstMentions i).filter (fun m => m.2 = p) =
      if i.phrases.contains p then [(i.name, p)] else [] := by
  rw [firstMentions, List.filter_map]
  have hfilter : i.phrases.eraseDups.filter ((fun m => decide (m.2 = p)) ∘ Prod.mk i.name) =
      if p ∈ i.phrases then [p] else [] := by
    rw [Function.comp_def, List.filter_eq, (nodup_eraseDups i.phrases).count]
    split <;> simp_all [List.mem_eraseDups]
  rw [hfilter]
  split <;> simp_all

lemma foldl_concat_fst (names : List Text) (ms : List (Text × Text)) :
    ms.foldl (fun names m => names ++ [m.1]) names = names ++ ms.map Prod.fst := by
  induction ms generalizing names with
  | nil => simp
  | cons m ms ih => simp [ih]

lemma gathered_firstMentions (is : List Intent) (p : Text) :
    gathered Prod.snd (fun names m => names ++ [m.1]) [] (is.flatMap firstMentions) p =
      owners is p := by
  rw [gathered, foldl_concat_fst, List.nil_append, List.filter_flatMap, List.map_flatMap, owners]
  simp only [filter_firstMentions]
  induction is with
  | nil => rfl
  | cons i is ih =>
    rw [List.flatMap_cons, ih, List.filter_cons]
    split <;> simp

/-- The owners of the phrases, as the pass leaves them. -/
lemma foldl_own (is : List Intent) :
    (is.flatMap firstMentions).foldl own [] =
      table (is.flatMap (·.phrases)).eraseDups (owners is) := by
  have hkeys : (is.flatMap firstMentions).map Prod.snd =
      is.flatMap fun i => i.phrases.eraseDups := by
    simp [firstMentions, List.map_flatMap, Function.comp_def]
  rw [← eraseDups_flatMap, ← hkeys, ← funext (gathered_firstMentions is)]
  exact foldl_update Prod.snd (fun names m => names ++ [m.1]) [] _

lemma ambiguityRemark?_eq (file : Option Text) (is : List Intent) (p : Text) :
    ambiguityRemark? file (p, owners is p) = (sharedIssue? is p).map (Issue.diagnostic file) := by
  unfold ambiguityRemark? sharedIssue?
  rcases owners is p with _ | ⟨first, _ | ⟨second, more⟩⟩ <;> rfl

lemma findings_eq (file : Option Text) (entries : Entries) :
    findings file (.map entries) =
      Diagnostic.sort ((met entries).map (Issue.diagnostic file)) := by
  simp only [findings, foldl_entryStep, Findings.after, foldl_own, List.nil_append]
  rw [met, List.map_append, sharedIssues, List.map_filterMap, table, List.filterMap_map]
  simp only [Function.comp_def, ambiguityRemark?_eq]

section Own

variable {i : Intent} {x : Issue}

lemma mem_nameIssues : x ∈ nameIssues i ↔
    (i.name = [] ∨ ∃ c ∈ i.name, Text.isBlank c = true) ∧ x = .blankName i.name := by
  simp [nameIssues]

lemma mem_emptyIssues : x ∈ emptyIssues i ↔ i.templates = [] ∧ x = .noTemplates i.name := by
  simp [emptyIssues]

lemma mem_repeatedIssues : x ∈ repeatedIssues i ↔
    ∃ p, 2 ≤ i.phrases.count p ∧ x = .repeated i.name p (i.phrases.count p) := by
  simp only [repeatedIssues, repeatedIssue?, List.mem_filterMap, List.mem_eraseDups,
    Option.ite_none_right_eq_some,
    Option.some.injEq]
  constructor
  · rintro ⟨p, -, h, rfl⟩
    exact ⟨p, h, rfl⟩
  · rintro ⟨p, h, rfl⟩
    exact ⟨p, List.count_pos_iff.1 (by omega), h, rfl⟩

lemma mem_ownIssues : x ∈ ownIssues i ↔
    x ∈ nameIssues i ∨ x ∈ emptyIssues i ∨ x ∈ repeatedIssues i := by
  rw [ownIssues, List.append_assoc, List.mem_append, List.mem_append]

/-- An issue of one intent is remarked on there, and is of one of three kinds. -/
lemma own_issue (hx : x ∈ ownIssues i) :
    x.intent = i.name ∧ x.kind ≠ .shared := by
  rcases mem_ownIssues.1 hx with hx | hx | hx
  · obtain ⟨-, rfl⟩ := mem_nameIssues.1 hx
    exact ⟨rfl, nofun⟩
  · obtain ⟨-, rfl⟩ := mem_emptyIssues.1 hx
    exact ⟨rfl, nofun⟩
  · obtain ⟨p, -, rfl⟩ := mem_repeatedIssues.1 hx
    exact ⟨rfl, nofun⟩

end Own

lemma mem_owners {entries : Entries} {name phrase : Text} :
    name ∈ owners (intents entries) phrase ↔ (name, phrase) ∈ mentions entries := by
  simp [owners, mem_mentions, and_comm, and_assoc]

lemma owners_sublist (entries : Entries) (phrase : Text) :
    ((owners (intents entries) phrase).map Key.text).Sublist (entries.map Prod.fst) := by
  rw [owners, List.map_map]
  exact (List.filter_sublist.map _).trans (names_sublist entries)

lemma mem_sharedIssues {is : List Intent} {x : Issue} :
    x ∈ sharedIssues is ↔ ∃ p first second more,
      owners is p = first :: second :: more ∧ x = .shared p first second more := by
  rw [sharedIssues, List.mem_filterMap]
  constructor
  · rintro ⟨p, -, h⟩
    unfold sharedIssue? at h
    split at h
    · rename_i first second more howners
      exact ⟨p, first, second, more, howners, (Option.some.inj h).symm⟩
    · exact absurd h (by simp)
  · rintro ⟨p, first, second, more, h, rfl⟩
    refine ⟨p, ?_, by rw [sharedIssue?, h]⟩
    have hfirst : first ∈ owners is p := h ▸ List.mem_cons_self
    simp only [owners, List.mem_map, List.mem_filter, List.contains_iff_mem] at hfirst
    obtain ⟨i, ⟨hi, hp⟩, -⟩ := hfirst
    exact List.mem_eraseDups.2 (List.mem_flatMap.2 ⟨i, hi, hp⟩)

theorem mem_met {entries : Entries} (hkeys : entries.DistinctKeys) {x : Issue} :
    x ∈ met entries ↔ x.Holds entries := by
  rw [met, List.mem_append, List.mem_flatMap, mem_sharedIssues]
  constructor
  · rintro (⟨i, hi, hx⟩ | ⟨p, first, second, more, h, rfl⟩)
    · obtain ⟨value, he, hds, hphrases⟩ := mem_intents.1 hi
      rcases mem_ownIssues.1 hx with hx | hx | hx
      · obtain ⟨h, rfl⟩ := mem_nameIssues.1 hx
        exact .blankName he hds h
      · obtain ⟨h, rfl⟩ := mem_emptyIssues.1 hx
        exact .noTemplates he (h ▸ hds)
      · obtain ⟨p, h, rfl⟩ := mem_repeatedIssues.1 hx
        rw [hphrases] at h ⊢
        exact .repeated he hds h
    · exact .shared (h ▸ owners_sublist entries p) fun name => h ▸ mem_owners
  · intro hx
    cases hx with
    | @blankName name value ds he hds h =>
      exact .inl ⟨⟨name, ds, generated ds⟩, mem_intents.2 ⟨value, he, hds, rfl⟩,
        mem_ownIssues.2 (.inl (mem_nameIssues.2 ⟨h, rfl⟩))⟩
    | @noTemplates name value he hds =>
      exact .inl ⟨⟨name, [], generated []⟩, mem_intents.2 ⟨value, he, hds, rfl⟩,
        mem_ownIssues.2 (.inr (.inl (mem_emptyIssues.2 ⟨rfl, rfl⟩)))⟩
    | @repeated name phrase value ds he hds h =>
      exact .inl ⟨⟨name, ds, generated ds⟩, mem_intents.2 ⟨value, he, hds, rfl⟩,
        mem_ownIssues.2 (.inr (.inr (mem_repeatedIssues.2 ⟨phrase, h, rfl⟩)))⟩
    | @shared phrase first second more horder h =>
      refine .inr ⟨phrase, first, second, more, ?_, rfl⟩
      exact names_unique hkeys (owners_sublist entries phrase) horder fun name =>
        mem_owners.trans (h name).symm

lemma shared_mem_met {entries : Entries} {phrase first second : Text} {more : List Text} :
    .shared phrase first second more ∈ met entries ↔
      owners (intents entries) phrase = first :: second :: more := by
  rw [met, List.mem_append, List.mem_flatMap, mem_sharedIssues]
  constructor
  · rintro (⟨i, -, hown⟩ | ⟨p, a, b, bs, howners, heq⟩)
    · exact absurd rfl (own_issue hown).2
    · cases heq
      exact howners
  · intro howners
    exact .inr ⟨phrase, first, second, more, howners, rfl⟩

/-- A phrase is remarked on as shared if two intents of different names generate it. -/
theorem exists_shared_iff {entries : Entries} (hkeys : entries.DistinctKeys) {phrase : Text} :
    (∃ first second more, .shared phrase first second more ∈ met entries) ↔
      ∃ name other, name ≠ other ∧ (name, phrase) ∈ mentions entries ∧
        (other, phrase) ∈ mentions entries := by
  have hnodup : (owners (intents entries) phrase).Nodup :=
    List.pairwise_map.2 ((pairwise_names hkeys).sublist List.filter_sublist)
  simp only [← mem_owners, shared_mem_met]
  constructor
  · rintro ⟨first, second, more, h⟩
    rw [h] at hnodup ⊢
    exact ⟨first, second, List.ne_of_not_mem_cons (List.nodup_cons.1 hnodup).1, by simp, by simp⟩
  · rintro ⟨name, other, hne, hname, hother⟩
    generalize owners (intents entries) phrase = names at hname hother ⊢
    rcases names with _ | ⟨first, _ | ⟨second, more⟩⟩
    · exact absurd hname List.not_mem_nil
    · exact absurd ((List.mem_singleton.1 hname).trans (List.mem_singleton.1 hother).symm) hne
    · exact ⟨first, second, more, rfl⟩

lemma code_injective : Issue.Kind.code.Injective := by
  intro k l
  cases k <;> cases l <;> decide

lemma sortKey_eq_iff {file : Option Text} {x y : Issue} :
    (x.diagnostic file).sortKey = (y.diagnostic file).sortKey ↔
      x.intent = y.intent ∧ x.kind = y.kind := by
  simp [Diagnostic.sortKey, Issue.diagnostic, code_injective.eq_iff]

lemma idxOf_mentions {entries : Entries} (hkeys : entries.DistinctKeys) {i : Intent}
    (hi : i ∈ intents entries) :
    ∃ start, ∀ p ∈ i.phrases,
      (mentions entries).idxOf (i.name, p) = start + i.phrases.idxOf p := by
  obtain ⟨before, after, hsplit, hbefore, -⟩ := mentions_split hkeys hi
  refine ⟨before.length, fun p hp => ?_⟩
  rw [hsplit, List.idxOf_append_of_notMem (hbefore p),
    List.idxOf_append_of_mem (List.mem_map_of_mem hp), idxOf_map (Prod.mk_right_injective i.name)]

section Order

variable (file : Option Text) {entries : Entries}

lemma pairwise_own (hkeys : entries.DistinctKeys) {i : Intent} (hi : i ∈ intents entries) :
    (ownIssues i).Pairwise fun x y =>
      (x.diagnostic file).sortKey = (y.diagnostic file).sortKey →
        x.place entries < y.place entries := by
  obtain ⟨start, hstart⟩ := idxOf_mentions hkeys hi
  rw [ownIssues, List.pairwise_append, List.pairwise_append]
  refine ⟨⟨?_, ?_, ?_⟩, ?_, ?_⟩
  · unfold nameIssues
    split <;> simp
  · unfold emptyIssues
    split <;> simp
  · intro x hx y hy hxy
    obtain ⟨-, rfl⟩ := mem_nameIssues.1 hx
    obtain ⟨-, rfl⟩ := mem_emptyIssues.1 hy
    exact nomatch (sortKey_eq_iff.1 hxy).2
  · rw [repeatedIssues, List.pairwise_filterMap]
    refine (pairwise_eraseDups i.phrases).imp_of_mem fun {p q} hp hq hpq x hx y hy _ => ?_
    simp only [repeatedIssue?, Option.ite_none_right_eq_some, Option.some.injEq] at hx hy
    obtain ⟨-, rfl⟩ := hx
    obtain ⟨-, rfl⟩ := hy
    rw [Issue.place, Issue.place, hstart p (List.mem_eraseDups.1 hp),
      hstart q (List.mem_eraseDups.1 hq)]
    omega
  · intro x hx y hy hxy
    obtain ⟨p, -, rfl⟩ := mem_repeatedIssues.1 hy
    rcases List.mem_append.1 hx with hx | hx
    · obtain ⟨-, rfl⟩ := mem_nameIssues.1 hx
      exact nomatch (sortKey_eq_iff.1 hxy).2
    · obtain ⟨-, rfl⟩ := mem_emptyIssues.1 hx
      exact nomatch (sortKey_eq_iff.1 hxy).2

lemma pairwise_shared :
    (sharedIssues (intents entries)).Pairwise fun x y =>
      (x.diagnostic file).sortKey = (y.diagnostic file).sortKey →
        x.place entries < y.place entries := by
  rw [sharedIssues, List.pairwise_filterMap]
  have hplace {p : Text} {x : Issue} (hx : sharedIssue? (intents entries) p = some x) :
      x.place entries = ((intents entries).flatMap (·.phrases)).idxOf p := by
    unfold sharedIssue? at hx
    split at hx
    · rw [← Option.some.inj hx, Issue.place, mentions_snd]
    · exact absurd hx (by simp)
  refine (pairwise_eraseDups _).imp fun {p q} hpq x hx y hy _ => ?_
  rwa [hplace hx, hplace hy]

lemma pairwise_met (hkeys : entries.DistinctKeys) :
    (met entries).Pairwise fun x y =>
      (x.diagnostic file).sortKey = (y.diagnostic file).sortKey →
        x.place entries < y.place entries := by
  rw [met, List.pairwise_append, List.pairwise_flatMap]
  refine ⟨⟨fun i hi => pairwise_own file hkeys hi, ?_⟩, pairwise_shared file, ?_⟩
  · refine (pairwise_names hkeys).imp fun hij x hx y hy hxy => absurd ?_ hij
    rw [← (own_issue hx).1, ← (own_issue hy).1, (sortKey_eq_iff.1 hxy).1]
  · intro x hx y hy hxy
    obtain ⟨i, -, hx⟩ := List.mem_flatMap.1 hx
    obtain ⟨p, first, second, more, -, rfl⟩ := mem_sharedIssues.1 hy
    exact absurd (sortKey_eq_iff.1 hxy).2 (own_issue hx).2

end Order

/-- A list of issues accounts for what the linter finds. -/
structure FindsExactly (file : Option Text) (entries : Entries) (issues : List Issue) : Prop where
  findings : findings file (.map entries) = issues.map (Issue.diagnostic file)
  mem_iff : ∀ x, x ∈ issues ↔ x.Holds entries
  /-- One for each thing that an issue can be about. -/
  once : (issues.map Issue.subject).Nodup
  /-- One for each phrase that intents of different names generate. -/
  shared_iff : ∀ phrase, (∃ first second more, .shared phrase first second more ∈ issues) ↔
    ∃ name other, name ≠ other ∧ (name, phrase) ∈ mentions entries ∧
      (other, phrase) ∈ mentions entries
  /-- By file, path and code, and then by where an issue first shows. -/
  ordered : issues.Pairwise fun x y =>
    (x.diagnostic file).sortKey < (y.diagnostic file).sortKey ∨
      (x.diagnostic file).sortKey = (y.diagnostic file).sortKey ∧
        x.place entries < y.place entries

/-- The linter finds exactly what there is to remark on in a mapping, each once and in order. -/
theorem findings_exact (file : Option Text) {entries : Entries} (hkeys : entries.DistinctKeys) :
    ∃ issues, FindsExactly file entries issues := by
  obtain ⟨issues, hperm, hsort, hordered⟩ :=
    Diagnostic.exists_sort_map (Issue.diagnostic file) (pairwise_met file hkeys)
  have hmem (x : Issue) : x ∈ issues ↔ x.Holds entries := by
    rw [hperm.mem_iff, mem_met hkeys]
  have hnodup : issues.Nodup := by
    refine hordered.imp fun {x y} h hxy => ?_
    subst hxy
    rcases h with h | ⟨-, h⟩
    · exact lt_irrefl _ h
    · exact lt_irrefl _ h
  refine ⟨issues, ?_, hmem, ?_, fun phrase => ?_, hordered⟩
  · rw [findings_eq, hsort]
  · exact hnodup.map_on fun x hx y hy =>
      Issue.Holds.eq_of_subject_eq hkeys ((hmem x).1 hx) ((hmem y).1 hy)
  · rw [← exists_shared_iff hkeys]
    simp only [hperm.mem_iff]

/-- An intent that repeats a phrase which another one generates too, a name with a blank, an intent
without templates, a template that is not closed, and a key that names no intent. -/
def carelessEntries : Entries :=
  [(.text "a b".toText, .list [.text "(x|x)".toText, .text "(".toText]),
    (.scalar (.int 1), .text "x".toText), (.text "c".toText, .tuple []),
    (.text "d".toText, .text "x".toText)]

theorem findings_exact_mixed :
    carelessEntries.DistinctKeys ∧
    (∃ issues, FindsExactly none carelessEntries issues) ∧
    findings none (.map carelessEntries) =
      [.repeated "a b".toText "x".toText 2, .blankName "a b".toText, .noTemplates "c".toText,
        .shared "x".toText "a b".toText "d".toText []].map (Issue.diagnostic none) := by
  have hkeys : carelessEntries.DistinctKeys := by decide
  have hmet : met carelessEntries =
      [.blankName "a b".toText, .repeated "a b".toText "x".toText 2, .noTemplates "c".toText,
        .shared "x".toText "a b".toText "d".toText []] := by
    decide +kernel
  refine ⟨hkeys, findings_exact none hkeys, ?_⟩
  rw [findings_eq, hmet]
  exact Diagnostic.sort_eq_of_perm (.swap ..) (by decide +kernel)

end Phrasebook.Lint
