import Phrasebook.Command.Standard
import Phrasebook.Proofs.Issues

/-!
# Loaded mappings

A mapping that is built entry by entry has no key twice, and neither have the mappings inside it if
they are built so (`Datum.KeysApart`). That is so for every JSON document, and for every YAML
document as far as its reader sees to it, so the mapping that is loaded from a file has no key twice
(`Load.distinctKeys_of_load`). The YAML reader that the program runs with does see to it
(`Command.standard_keepsKeysApart`).
-/

namespace Phrasebook

namespace Entries

lemma keys_insertBy (same : Key → Key → Bool) (key : Key) (value : Datum) (entries : Entries) :
    (insertBy same key value entries).map Prod.fst = entries.map Prod.fst ∨
      (insertBy same key value entries).map Prod.fst = entries.map Prod.fst ++ [key] ∧
        ∀ k ∈ entries.map Prod.fst, same k key = false := by
  induction entries with
  | nil => exact .inr ⟨rfl, by simp⟩
  | cons e entries ih =>
    obtain ⟨k, v⟩ := e
    rw [insertBy]
    by_cases hk : same k key = true
    · rw [if_pos hk]
      exact .inl rfl
    · rw [if_neg hk]
      rcases ih with h | ⟨h, hnew⟩
      · exact .inl (by simp [h])
      · exact .inr ⟨by simp [h], by simpa [hk] using hnew⟩

lemma value_of_mem_insertBy {same : Key → Key → Bool} {key : Key} {value : Datum}
    {entries : Entries} {e : Key × Datum} (he : e ∈ insertBy same key value entries) :
    e.2 = value ∨ ∃ f ∈ entries, f.2 = e.2 := by
  induction entries with
  | nil =>
    obtain rfl := List.mem_singleton.1 he
    exact .inl rfl
  | cons f entries ih =>
    obtain ⟨k, v⟩ := f
    rw [insertBy] at he
    split_ifs at he
    · rcases List.mem_cons.1 he with rfl | he
      · exact .inl rfl
      · exact .inr ⟨e, List.mem_cons_of_mem _ he, rfl⟩
    · rcases List.mem_cons.1 he with rfl | he
      · exact .inr ⟨_, List.mem_cons_self, rfl⟩
      · exact (ih he).imp_right fun ⟨f, hf, hvalue⟩ => ⟨f, List.mem_cons_of_mem _ hf, hvalue⟩

/-- A mapping has no values but those of the entries that it is built from. -/
lemma value_of_mem_ofList {same : Key → Key → Bool} {es : Entries} {e : Key × Datum}
    (he : e ∈ ofList same es) : ∃ f ∈ es, f.2 = e.2 := by
  have hbuilt (entries : Entries)
      (hfold : e ∈ es.foldl (fun m e => insertBy same e.1 e.2 m) entries) :
      (∃ f ∈ es, f.2 = e.2) ∨ ∃ f ∈ entries, f.2 = e.2 := by
    clear he
    induction es generalizing entries with
    | nil => exact .inr ⟨e, hfold, rfl⟩
    | cons g es ih =>
      rcases ih _ hfold with ⟨f, hf, hvalue⟩ | ⟨f, hf, hvalue⟩
      · exact .inl ⟨f, List.mem_cons_of_mem g hf, hvalue⟩
      · rcases value_of_mem_insertBy hf with hnew | ⟨f', hf', hold⟩
        · exact .inl ⟨g, List.mem_cons_self, hnew.symm.trans hvalue⟩
        · exact .inr ⟨f', hf', hold.trans hvalue⟩
  exact (hbuilt [] he).resolve_right fun ⟨_, hf, _⟩ => List.not_mem_nil hf

section Built

variable {same : Key → Key → Bool} (h : ∀ k l, k.same l = true → same k l = true)
include h

lemma distinctKeys_insertBy {entries : Entries} (hkeys : entries.DistinctKeys) (key : Key)
    (value : Datum) : (insertBy same key value entries).DistinctKeys := by
  unfold DistinctKeys at hkeys ⊢
  rcases keys_insertBy same key value entries with heq | ⟨heq, hnew⟩
  · rwa [heq]
  · rw [heq, List.pairwise_append]
    refine ⟨hkeys, List.pairwise_singleton _ _, fun k hk l hl => ?_⟩
    rw [List.mem_singleton.1 hl]
    refine Bool.eq_false_iff.2 fun hsame => ?_
    exact Bool.noConfusion ((h k key hsame).symm.trans (hnew k hk))

/-- A mapping that is built entry by entry has different keys, if the relation by which it is built
takes no two keys for different that are the same. -/
theorem distinctKeys_ofList (es : Entries) : (ofList same es).DistinctKeys := by
  have hbuilt (entries : Entries) (hkeys : entries.DistinctKeys) :
      (es.foldl (fun m e => insertBy same e.1 e.2 m) entries).DistinctKeys := by
    induction es generalizing entries with
    | nil => exact hkeys
    | cons e es ih => exact ih _ (distinctKeys_insertBy h hkeys e.1 e.2)
  exact hbuilt [] List.Pairwise.nil

end Built

end Entries

namespace Datum

/-- The mapping that a datum is, or one that it has under keys. -/
inductive Has : Datum → Entries → Prop
  | itself (entries : Entries) : Has (.map entries) entries
  | within {entries inner : Entries} {e : Key × Datum} (he : e ∈ entries) (h : Has e.2 inner) :
      Has (.map entries) inner

/-- The mapping that a datum is, and every one that it has under keys, has different keys. -/
def KeysApart (d : Datum) : Prop :=
  ∀ entries, d.Has entries → entries.DistinctKeys

/-- Data that are made in one way have no key twice if no mapping that is made so has, and what it
holds is made so again. -/
lemma keysApart_of_made (made : Datum → Prop)
    (hmade : ∀ entries : Entries, made (.map entries) →
      entries.DistinctKeys ∧ ∀ e ∈ entries, made e.2) {d : Datum} (hd : made d) : d.KeysApart := by
  intro entries h
  induction h with
  | itself entries => exact (hmade entries hd).1
  | within he _ ih => exact ih ((hmade _ hd).2 _ he)

end Datum

namespace Json

lemma exists_of_mem_membersToEntries {members : List (Text × Json)} {e : Key × Datum}
    (he : e ∈ membersToEntries members) : ∃ j : Json, e.2 = j.toDatum := by
  induction members with
  | nil => exact absurd he List.not_mem_nil
  | cons m members ih =>
    obtain ⟨name, j⟩ := m
    rw [membersToEntries] at he
    rcases List.mem_cons.1 he with rfl | he
    · exact ⟨j, rfl⟩
    · exact ih he

theorem keysApart_toDatum (j : Json) : j.toDatum.KeysApart := by
  refine Datum.keysApart_of_made (fun d => ∃ j : Json, d = j.toDatum) ?_ ⟨j, rfl⟩
  rintro entries ⟨j, hj⟩
  cases j with
  | object members =>
    rw [toDatum] at hj
    obtain rfl := Datum.map.inj hj
    refine ⟨Entries.distinctKeys_ofList (fun _ _ h => h) _, fun e he => ?_⟩
    obtain ⟨f, hf, hvalue⟩ := Entries.value_of_mem_ofList he
    exact hvalue ▸ exists_of_mem_membersToEntries hf
  | _ => simp [toDatum] at hj

end Json

namespace Load

variable {yaml : YamlReader}

/-- A reader of YAML reads no mapping with a key twice. -/
def YamlReader.KeepsKeysApart (yaml : YamlReader) : Prop :=
  ∀ text d, yaml text = .ok d → d.KeysApart

lemma keysApart_of_readDocument (h : yaml.KeepsKeysApart) {files : Source} {path : Path}
    {d : Datum} (hread : readDocument yaml files path = .ok d) : d.KeysApart := by
  obtain ⟨text, -, hread⟩ := Template.Except.bind_eq_ok hread
  split at hread
  · exact nomatch hread
  · split at hread
    · exact nomatch hread
    · rename_i d' hd
      obtain rfl := Except.ok.inj hread
      exact h text d' hd
  · split at hread
    · exact nomatch hread
    · obtain rfl := Except.ok.inj hread
      exact Json.keysApart_toDatum _

lemma has_of_unwrap {path : Path} {d : Datum} {entries : Entries}
    (h : unwrap path d = .ok (.map entries)) : d.Has entries := by
  unfold unwrap at h
  split at h
  · split at h
    · obtain rfl := Datum.map.inj (Except.ok.inj h)
      exact .within List.mem_cons_self (.itself _)
    · exact nomatch h
  · rw [Except.ok.inj h]
    exact .itself entries

lemma has_of_intentsOf {path : Path} {d : Datum} {entries : Entries}
    (h : intentsOf path d = .ok entries) : d.Has entries := by
  unfold intentsOf at h
  split at h
  · exact nomatch h
  · obtain ⟨d', hd', h⟩ := Template.Except.bind_eq_ok h
    split at h
    · obtain rfl := Except.ok.inj h
      exact has_of_unwrap hd'
    · exact nomatch h

/-- The mapping that is loaded from a file has no key twice. -/
theorem distinctKeys_of_load (h : yaml.KeepsKeysApart) {files : Source} {path : Text}
    {entries : Entries} (hload : load yaml files path = .ok entries) : entries.DistinctKeys := by
  obtain ⟨d, hd, hintents⟩ := Template.Except.bind_eq_ok hload
  exact keysApart_of_readDocument h hd entries (has_of_intentsOf hintents)

end Load

namespace Yaml

/-- A datum that a node of a document is. -/
def IsRead (d : Datum) : Prop :=
  ∃ n : Node, n.toDatum = .ok d

mutual

theorem isRead_of_gather : ∀ {nodes : List (Node × Node)} {taken own : Entries},
    gather nodes = .ok (taken, own) → ∀ e ∈ taken ++ own, IsRead e.2
  | [], taken, own, h, e, he => by
    rw [gather] at h
    obtain ⟨rfl, rfl⟩ := Prod.mk.inj (Except.ok.inj h)
    exact absurd he List.not_mem_nil
  | (k, v) :: rest, taken, own, h, e, he => by
    rw [gather] at h
    split at h
    · obtain ⟨more, hmore, h⟩ := Template.Except.bind_eq_ok h
      obtain ⟨⟨taken', own'⟩, hrest, h⟩ := Template.Except.bind_eq_ok h
      obtain ⟨rfl, rfl⟩ := Prod.mk.inj (Except.ok.inj h)
      rw [List.append_assoc] at he
      rcases List.mem_append.1 he with he | he
      · exact isRead_of_sources hmore e he
      · exact isRead_of_gather hrest e he
    · obtain ⟨key, -, h⟩ := Template.Except.bind_eq_ok h
      obtain ⟨value, hvalue, h⟩ := Template.Except.bind_eq_ok h
      obtain ⟨⟨taken', own'⟩, hrest, h⟩ := Template.Except.bind_eq_ok h
      obtain ⟨rfl, rfl⟩ := Prod.mk.inj (Except.ok.inj h)
      rcases List.mem_append.1 he with he | he
      · exact isRead_of_gather hrest e (List.mem_append_left _ he)
      · rcases List.mem_cons.1 he with rfl | he
        · exact ⟨v, hvalue⟩
        · exact isRead_of_gather hrest e (List.mem_append_right _ he)

theorem isRead_of_sources : ∀ {n : Node} {es : Entries},
    sources n = .ok es → ∀ e ∈ es, IsRead e.2
  | .mapping tag nodes, es, h, e, he => by
    rw [sources] at h
    obtain ⟨⟨taken, own⟩, hgather, h⟩ := Template.Except.bind_eq_ok h
    obtain rfl := Except.ok.inj h
    exact isRead_of_gather hgather e he
  | .sequence tag items, es, h, e, he => by
    rw [sources] at h
    exact isRead_of_allSources h e he
  | .scalar tag s, es, h, e, he => by
    simp [sources] at h
  | .alias name, es, h, e, he => by
    simp [sources] at h

theorem isRead_of_allSources : ∀ {nodes : List Node} {es : Entries},
    allSources nodes = .ok es → ∀ e ∈ es, IsRead e.2
  | [], es, h, e, he => by
    rw [allSources] at h
    obtain rfl := Except.ok.inj h
    exact absurd he List.not_mem_nil
  | .mapping tag entries :: rest, es, h, e, he => by
    rw [allSources] at h
    obtain ⟨⟨taken, own⟩, hgather, h⟩ := Template.Except.bind_eq_ok h
    obtain ⟨more, hmore, h⟩ := Template.Except.bind_eq_ok h
    obtain rfl := Except.ok.inj h
    rcases List.mem_append.1 he with he | he
    · exact isRead_of_allSources hmore e he
    · exact isRead_of_gather hgather e he
  | .sequence tag items :: rest, es, h, e, he => by
    simp [allSources] at h
  | .scalar tag s :: rest, es, h, e, he => by
    simp [allSources] at h
  | .alias name :: rest, es, h, e, he => by
    simp [allSources] at h

end

lemma same_of_same {k l : Key} (h : k.same l = true) : k.sameInDocument l = true := by
  unfold Key.sameInDocument
  split
  · rfl
  · exact h

lemma exists_scalar_of_map {α : Type} {x : Except Fault α} {f : α → Datum}
    (hf : ∀ a, ∃ v, f a = .scalar v) {d : Datum} (h : x.map f = .ok d) : ∃ v, d = .scalar v := by
  obtain ⟨a, -, rfl⟩ := Template.Except.map_eq_ok h
  exact hf a

lemma exists_scalar_of_scalarDatum {tag : Tag} {s : Text} {d : Datum}
    (h : scalarDatum tag s = .ok d) : ∃ v, d = .scalar v := by
  cases tag with
  | null => exact ⟨_, (Except.ok.inj h).symm⟩
  | str => exact ⟨_, (Except.ok.inj h).symm⟩
  | bool => exact exists_scalar_of_map (fun _ => ⟨_, rfl⟩) h
  | int => exact exists_scalar_of_map (fun _ => ⟨_, rfl⟩) h
  | float => exact exists_scalar_of_map (fun _ => ⟨_, rfl⟩) h
  | binary => exact exists_scalar_of_map (fun _ => ⟨_, rfl⟩) h
  | timestamp =>
    refine exists_scalar_of_map (fun a => ?_) h
    cases a <;> exact ⟨_, rfl⟩
  | _ => exact nomatch h

lemma ne_map_of_scalarDatum {tag : Tag} {s : Text} {entries : Entries} :
    scalarDatum tag s ≠ .ok (.map entries) := by
  intro h
  obtain ⟨v, hv⟩ := exists_scalar_of_scalarDatum h
  exact nomatch hv

/-- A mapping that is read is built from entries whose values are read. -/
lemma exists_of_toDatum {n : Node} {entries : Entries} (h : n.toDatum = .ok (.map entries)) :
    ∃ es : Entries, entries = Entries.ofList Key.sameInDocument es ∧ ∀ e ∈ es, IsRead e.2 := by
  unfold Node.toDatum at h
  split at h
  · exact nomatch h
  · exact absurd h ne_map_of_scalarDatum
  · split at h
    · obtain ⟨ds, -, h⟩ := Template.Except.bind_eq_ok h
      exact nomatch h
    · obtain ⟨ds, -, h⟩ := Template.Except.bind_eq_ok h
      exact nomatch h
    · split_ifs at h
  · split at h
    · obtain ⟨⟨taken, own⟩, hgather, h⟩ := Template.Except.bind_eq_ok h
      exact ⟨taken ++ own, (Datum.map.inj (Except.ok.inj h)).symm, isRead_of_gather hgather⟩
    · obtain ⟨⟨taken, own⟩, -, h⟩ := Template.Except.bind_eq_ok h
      exact nomatch h
    · split_ifs at h
      split at h
      · exact absurd h ne_map_of_scalarDatum
      · exact nomatch h

theorem keysApart_of_toDatum {n : Node} {d : Datum} (h : n.toDatum = .ok d) : d.KeysApart := by
  refine Datum.keysApart_of_made IsRead ?_ ⟨n, h⟩
  rintro entries ⟨n, hn⟩
  obtain ⟨es, rfl, hes⟩ := exists_of_toDatum hn
  refine ⟨Entries.distinctKeys_ofList (fun _ _ => same_of_same) es, fun e he => ?_⟩
  obtain ⟨f, hf, hvalue⟩ := Entries.value_of_mem_ofList he
  exact hvalue ▸ hes f hf

theorem keysApart_of_read {text : Text} {d : Datum} (h : read text = .ok d) : d.KeysApart := by
  obtain ⟨ts, -, h⟩ := Template.Except.bind_eq_ok h
  obtain ⟨root, -, h⟩ := Template.Except.bind_eq_ok h
  split at h
  · obtain rfl := Except.ok.inj h
    intro entries hentries
    cases hentries
  · exact keysApart_of_toDatum h

end Yaml

namespace Command

theorem standard_keepsKeysApart : Packages.standard.yaml.KeepsKeysApart := by
  intro text d h
  change (Yaml.read text).mapError _ = .ok d at h
  cases hread : Yaml.read text with
  | error f => simp [hread, Except.mapError] at h
  | ok d' =>
    rw [hread] at h
    obtain rfl := Except.ok.inj h
    exact Yaml.keysApart_of_read hread

end Command

end Phrasebook
