import Phrasebook.Proofs.Juxtaposition
import Phrasebook.Proofs.Respacing
import Phrasebook.Proofs.Stripping

/-!
# Normalizing twice

The normal form is made in one pass, so groups of a lone word may be left that the pass itself has
brought about. A second pass settles them, and a word that loses its brackets is glued to the word
beside it if no blank stands between the two (`exists_glued_of_reads`). Neither changes what there
is to choose. So where the normal form of a template has tokens, the two have the same phrases but
for blanks, and the very same where nothing is left to strip (`expand_normalize`).
-/

namespace Phrasebook.Template

lemma normalize_alternation_append {choices : Text} (h : ∀ c ∈ choices, isBracket c = false)
    (s : Text) : normalize (char '(' :: choices ++ char ')' :: s) =
      normalize (char '(' :: choices ++ [char ')']) ++ normalize s := by
  by_cases hlone : IsLone choices
  · rw [normalize_lone hlone, normalize_lone hlone, normalize_nil, List.append_nil]
  · rw [normalize_not_lone h hlone, normalize_not_lone h hlone, normalize_nil]
    simp

lemma Token.IsGroup.normalize_append {t : Token} (ht : t.IsGroup) (s : Text) :
    normalize (t.text ++ s) = normalize t.text ++ normalize s := by
  cases ht with
  | @alternation choices h =>
    have happend := normalize_alternation_append h s
    simpa using happend
  | @slot choices name hchoices hname =>
    have hcurly : char '(' ∉ name ++ [char '\x7d'] := by
      simpa using not_mem_of_forall hname rfl
    have happend (rest : Text) :
        normalize
            (char '\x7b' :: (char '(' :: choices ++ char ')' :: (name ++ [char '\x7d'] ++ rest))) =
          char '\x7b' ::
            (normalize (char '(' :: choices ++ [char ')']) ++
              (name ++ [char '\x7d'] ++ normalize rest)) := by
      rw [normalize_cons (by decide), normalize_alternation_append hchoices,
        normalize_append_left hcurly]
    have hself :
        normalize (char '\x7b' :: (char '(' :: choices ++ char ')' :: name) ++ [char '\x7d']) =
          char '\x7b' ::
            (normalize (char '(' :: choices ++ [char ')']) ++ (name ++ [char '\x7d'])) := by
      simpa using happend []
    rw [hself]
    simpa using happend s
  | @curly inner _ hround =>
    have htext : char '(' ∉ char '\x7b' :: inner ++ [char '\x7d'] := by simpa using hround
    rw [normalize_append_left htext, normalize_eq_self htext]

lemma Token.IsLexeme.normalize_append {t : Token} (ht : t.IsLexeme) (s : Text) :
    normalize (t.text ++ s) = t.settle.text ++ normalize s := by
  rw [Token.settle_text]
  rcases ht with ⟨run, _, hrun, rfl⟩ | ht
  · have hround : char '(' ∉ run :=
      not_mem_of_forall (fun c hc => (isWordChar_iff.1 (hrun c hc)).2) rfl
    rw [normalize_append_left hround, normalize_eq_self hround]
  · exact ht.normalize_append s

/-- The second row is the first with some of its words glued to the word behind them. -/
inductive Glued : List Token → List Token → Prop
  | nil : Glued [] []
  | cons (t : Token) {ts us : List Token} (h : Glued ts us) : Glued (t :: ts) (t :: us)
  | glue (v w : Text) {ts us : List Token} (h : Glued ts (.ofWord w :: us)) :
      Glued (.ofWord v :: ts) (.ofWord (v ++ w) :: us)

lemma Glued.length_le {ts us : List Token} (h : Glued ts us) : us.length ≤ ts.length := by
  induction h with
  | nil => exact Nat.le_refl _
  | cons t _ ih => exact Nat.succ_le_succ ih
  | glue v w _ ih => exact Nat.le_succ_of_le ih

lemma Glued.eq_of_length {ts us : List Token} (h : Glued ts us) (hlength : us.length = ts.length) :
    us = ts := by
  induction h with
  | nil => rfl
  | cons t _ ih => rw [ih (Nat.succ.inj hlength)]
  | glue v w h _ =>
    have hle := h.length_le
    simp only [List.length_cons] at hle hlength
    omega

/-- A token before a text is a token of the whole, or glued to the word that the text begins
with. -/
lemma Token.IsLexeme.exists_glued {t : Token} (ht : t.IsLexeme) {s : Text} {ts us : List Token}
    (h : Reads s us) (hglued : Glued ts us) :
    ∃ vs, Reads (t.text ++ s) vs ∧ Glued (t :: ts) vs := by
  rcases ht with ⟨run, hne, hrun, rfl⟩ | ht
  · cases h with
    | nil => exact ⟨_, .word hne hrun (by simp) .nil, .cons _ hglued⟩
    | blank hc h =>
      refine ⟨_, .word hne hrun ?_ (.blank hc h), .cons _ hglued⟩
      simp [not_isWordChar_of_isBlank hc]
    | @word run' s us _ hrun' hend h =>
      have hboth : ∀ c ∈ run ++ run', isWordChar c = true := List.forall_mem_append.2 ⟨hrun, hrun'⟩
      have hreads := Reads.word (by simp [hne]) hboth hend h
      rw [List.append_assoc] at hreads
      exact ⟨_, hreads, .glue run run' hglued⟩
    | @group u s us hu h =>
      refine ⟨_, .word hne hrun ?_ (.group hu h), .cons _ hglued⟩
      obtain ⟨shape, inner, _, htext⟩ := hu.exists_enclosed
      simp [htext, not_isWordChar_of_isBracket]
  · exact ⟨_, .group ht h, .cons _ hglued⟩

/-- The normal form of a text reads as the tokens of the text, settled and then glued. -/
theorem exists_glued_of_reads {s : Text} {ts : List Token} (h : Reads s ts) :
    ∃ us, Reads (normalize s) us ∧ Glued (ts.map Token.settle) us := by
  induction h with
  | nil => exact ⟨[], by simpa using Reads.nil, .nil⟩
  | @blank c s ts hc _ ih =>
    obtain ⟨us, hus, hglued⟩ := ih
    have hround : c ≠ '(' := by
      rintro rfl
      exact absurd hc (by decide)
    rw [normalize_cons hround]
    exact ⟨us, .blank hc hus, hglued⟩
  | @word run s ts hne hrun _ _ ih =>
    obtain ⟨us, hus, hglued⟩ := ih
    have ht : (Token.ofWord run).IsLexeme := .inl ⟨run, hne, hrun, rfl⟩
    rw [ht.normalize_append s]
    exact ht.settle.exists_glued hus hglued
  | @group t s ts ht _ ih =>
    obtain ⟨us, hus, hglued⟩ := ih
    have ht : t.IsLexeme := .inr ht
    rw [ht.normalize_append s]
    exact ht.settle.exists_glued hus hglued

/-- The characters of a text that are no blanks. -/
def solid (s : Text) : Text :=
  s.filter fun c => !Text.isBlank c

lemma solid_append (s t : Text) : solid (s ++ t) = solid s ++ solid t :=
  List.filter_append ..

lemma solid_of_reads {s : Text} {ts : List Token} (h : Reads s ts) :
    solid s = solid (ts.map (·.text)).flatten := by
  induction h with
  | nil => rfl
  | @blank c s ts hc _ ih =>
    rw [← ih, solid, List.filter_cons_of_neg (by simp [hc])]
    rfl
  | word _ _ _ _ ih => rw [solid_append, ih, List.map_cons, List.flatten_cons, solid_append]
  | group _ _ ih => rw [solid_append, ih, List.map_cons, List.flatten_cons, solid_append]

/-- The rows that a row of tokens stands for, each as one text without blanks. -/
def solidRows (ts : List Token) : Except Fault (List Text) :=
  (rows ts).map fun rs => rs.map fun r => solid r.flatten

lemma solidRows_cons (t : Token) (ts : List Token) :
    solidRows (t :: ts) = t.choices.bind fun cs =>
      (solidRows ts).map fun rs => cs.flatMap fun c => rs.map (solid c.flatten ++ ·) := by
  rw [solidRows, solidRows, rows_cons]
  cases t.choices with
  | error f => rfl
  | ok cs =>
    cases rows ts with
    | error f => rfl
    | ok rs =>
      simp [Except.map, Except.bind, List.map_flatMap, Function.comp_def, solid_append]

lemma solidRows_word (w : Text) (ts : List Token) :
    solidRows (.ofWord w :: ts) = (solidRows ts).map fun rs => rs.map (solid w ++ ·) := by
  rw [solidRows_cons, choices_of_not_expandable rfl]
  cases solidRows ts <;> simp [Except.map, Except.bind]

lemma Glued.solidRows_eq {ts us : List Token} (h : Glued ts us) :
    solidRows us = solidRows ts := by
  induction h with
  | nil => rfl
  | cons t _ ih => rw [solidRows_cons, solidRows_cons, ih]
  | glue v w _ ih =>
    rw [solidRows_word, solidRows_word, ← ih, solidRows_word, Except.map_map]
    simp [Function.comp_def, solid_append]

lemma ReadAs.map_solid {ps : List Text} {rs : List (List Text)} (h : ReadAs ps rs) :
    ps.map solid = rs.map fun r => solid r.flatten := by
  induction ps generalizing rs with
  | nil =>
    obtain rfl := List.length_eq_zero_iff.1 h.length_eq.symm
    rfl
  | cons p ps ih =>
    obtain ⟨r, rs, rfl, hp, hps⟩ := List.map_eq_cons_iff.1 h.symm
    obtain ⟨ts, hts, rfl⟩ := Except.map_eq_ok hp.symm
    rw [List.map_cons, List.map_cons, ih hps.symm, solid_of_reads (tokenize_eq_ok_iff.1 hts)]

lemma map_solid_expand {template : Text} {ts : List Token} (h : Reads (normalize template) ts) :
    (expand template).map (List.map solid) = solidRows ts := by
  cases hrows : rows ts with
  | error f =>
    have hexpand := expand_eq_rows h
    rw [hrows] at hexpand
    rw [solidRows, hrows, Except.map_eq_error hexpand]
    rfl
  | ok rs =>
    obtain ⟨ps, hps, hread⟩ := exists_readAs h hrows
    rw [solidRows, hrows, hps]
    exact congrArg Except.ok hread.map_solid

/-- Where a second pass glues no words, and a group is left, expansion does not see it. -/
lemma expand_of_settled {template : Text} {ts : List Token} (h : Reads (normalize template) ts)
    (hsettled : Reads (normalize (normalize template)) (ts.map Token.settle))
    (hx : ∃ u ∈ ts.map Token.settle, u.expandable = true) :
    expand (normalize template) = expand template := by
  have hgroup : ∃ t ∈ ts, t.expandable = true := by
    obtain ⟨u, hu, hexpandable⟩ := hx
    obtain ⟨t, ht, rfl⟩ := List.mem_map.1 hu
    exact ⟨t, ht, (h.isLexeme t ht).settling.expandable hexpandable⟩
  rw [← expand_joined h hgroup, ← expand_joined hsettled hx]
  apply expand_congr
  rw [normalize_joined, normalize_joined, settle_settled h.isLexeme]

/-- A bracket of a normal form is one of the text, and what stands on either side of it is the
normal form of what stands there in the text. -/
lemma exists_of_normalize_eq {c : CodePoint} (hc : isBracket c = true) {s x y : Text}
    (h : normalize s = x ++ c :: y) :
    ∃ u v, s = u ++ c :: v ∧ normalize u = x ∧ normalize v = y := by
  fun_induction normalize s generalizing x with
  | case1 => simp at h
  | case2 s w rest hw ih =>
    obtain ⟨rfl, hne, hplain⟩ := loneWord?_eq_some hw
    have hmem : c ∉ w := fun hcw => by
      rw [isBracket_of_isPlain (hplain c hcw)] at hc
      exact Bool.noConfusion hc
    obtain ⟨x', rfl, hrest⟩ : ∃ x', x = w ++ x' ∧ normalize rest = x' ++ c :: y := by
      rcases List.append_eq_append_iff.1 h with hbehind | ⟨w', hw', hy⟩
      · exact hbehind
      · cases w' with
        | nil => exact ⟨[], by simpa using hw'.symm, by simpa using hy.symm⟩
        | cons d w' =>
          obtain rfl : c = d := (List.cons.inj hy).1
          simp [hw'] at hmem
    obtain ⟨u, v, rfl, rfl, hv⟩ := ih hrest
    exact ⟨char '(' :: w ++ char ')' :: u, v, by simp, normalize_lone ⟨hne, hplain⟩ u, hv⟩
  | case3 s hw ih =>
    cases x with
    | nil =>
      obtain ⟨rfl, rfl⟩ := List.cons.inj h
      exact ⟨[], s, rfl, normalize_nil, rfl⟩
    | cons d x =>
      obtain ⟨rfl, htail⟩ := List.cons.inj h
      obtain ⟨u, v, rfl, rfl, hv⟩ := ih (x := x) htail
      refine ⟨char '(' :: u, v, rfl, normalize_of_no_word ?_, hv⟩
      rw [Option.eq_none_iff_forall_ne_some]
      rintro ⟨w, rest⟩ hsome
      obtain ⟨rfl, hne, hplain⟩ := loneWord?_eq_some hsome
      rw [List.append_assoc, List.cons_append, loneWord?_append_closer hne hplain] at hw
      exact Option.some_ne_none _ hw
  | case4 d s hd ih =>
    cases x with
    | nil =>
      obtain ⟨rfl, rfl⟩ := List.cons.inj h
      exact ⟨[], s, rfl, normalize_nil, rfl⟩
    | cons e x =>
      obtain ⟨rfl, htail⟩ := List.cons.inj h
      obtain ⟨u, v, rfl, rfl, hv⟩ := ih (x := x) htail
      exact ⟨d :: u, v, rfl, normalize_cons hd u, hv⟩

/-- A group outside all others in a normal form is one in the text. -/
lemma Outermost.exists_of_normalize {s before inner : Text} {shape : Shape}
    (h : Outermost (normalize s) before shape inner) :
    ∃ before' inner', Outermost s before' shape inner' ∧ normalize inner' = inner := by
  obtain ⟨rest, hrest⟩ := h.stands
  have hcloser : normalize s = (before ++ shape.opener :: inner) ++ shape.closer :: rest := by
    rw [← hrest, Shape.enclose]
    simp
  obtain ⟨u, rest', rfl, hu, -⟩ := exists_of_normalize_eq (isBracket_closer shape) hcloser
  obtain ⟨before', inner', rfl, rfl, rfl⟩ := exists_of_normalize_eq (isBracket_opener shape) hu
  refine ⟨before', inner', ⟨(balanced_normalize_iff _).1 h.outside,
    (balanced_normalize_iff _).1 h.inside, rest', ?_⟩, rfl⟩
  simp [Shape.enclose]

lemma Shape.Allows.normalize {shape : Shape} {inner : Text} (h : shape.Allows inner) :
    shape.Allows (normalize inner) := by
  cases shape with
  | round =>
    have hround : char '(' ∉ inner := not_mem_of_forall h rfl
    rwa [normalize_eq_self hround]
  | curly =>
    rcases h with hround | ⟨choices, name, rfl, hchoices, hname⟩
    · rw [normalize_eq_self hround]
      exact .inl hround
    · have hround : char '(' ∉ name := not_mem_of_forall hname rfl
      by_cases hlone : IsLone choices
      · rw [normalize_lone hlone, normalize_eq_self hround]
        exact .inl (List.not_mem_append (not_mem_of_forall hchoices rfl) hround)
      · rw [normalize_not_lone hchoices hlone, normalize_eq_self hround]
        exact .inr ⟨choices, name, rfl, hchoices, hname⟩

/-- Up to the fault of a template with an unbalanced bracket all groups are in order. -/
lemma allows_of_unbalanced {s before inner : Text} {shape : Shape} {f : Fault}
    (h : tokenize s = .error f) (hcode : f.code = "E_UNBALANCED_GROUP".toText)
    (hgroup : Outermost s before shape inner) : shape.Allows inner := by
  have hverdict := tokenize_verdict s
  rw [h] at hverdict
  cases hverdict with
  | @malformed _ _ shape => exact absurd hcode (shape.malformed_code_ne _ _)
  | @stray pre rest shape' opened hs hopen hstray horderly =>
    by_contra hbad
    have hlt : pre.length < (before ++ shape.enclose inner).length := by
      by_contra hle
      exact hbad (horderly _ _ _ (hgroup.restrict ⟨shape'.closer :: rest, hs.symm⟩ (by omega)))
    have hhorizon := isHorizon_of_stray hopen hstray rest
    obtain ⟨behind, hbehind⟩ := hgroup.stands
    have hclosed := Open.not_strayAt (.none hgroup.balanced) behind hlt
    rw [hbehind, hs] at hclosed
    exact hclosed (hhorizon.stray (by simp))
  | unclosed hopen horderly => exact horderly _ _ _ hgroup

/-- Stripping brings no other fault before an unbalanced bracket. -/
theorem unbalanced_normalize {s : Text} {f : Fault} (h : tokenize s = .error f)
    (hcode : f.code = "E_UNBALANCED_GROUP".toText) :
    ∃ g, tokenize (normalize s) = .error g ∧ g.code = "E_UNBALANCED_GROUP".toText := by
  have hbalanced : ¬Balanced s := fun hbalanced => code_ne_of_balanced hbalanced h hcode
  have hverdict := tokenize_verdict (normalize s)
  generalize hresult : tokenize (normalize s) = result at hverdict
  cases hverdict with
  | accepted hnormal => exact absurd ((balanced_normalize_iff s).1 hnormal) hbalanced
  | malformed hgroup _ hbad =>
    obtain ⟨before, inner, houtermost, rfl⟩ := hgroup.exists_of_normalize
    exact absurd (allows_of_unbalanced h hcode houtermost).normalize hbad
  | stray => exact ⟨_, rfl, rfl⟩
  | unclosed => exact ⟨_, rfl, rfl⟩

/-- Expansion absorbs a normal form of which nothing is left to strip. Where groups of a lone word
are left, but the normal form has tokens, expanding it again gives the same fault, or as many
phrases in the same order, each with the same characters but for blanks; and the very same phrases
if the second pass leaves as many tokens, some group among them. An unbalanced bracket stays the
fault in any case. -/
theorem expand_normalize (template : Text) :
    (normalize (normalize template) = normalize template →
      expand (normalize template) = expand template) ∧
    (∀ ts, tokenize (normalize template) = .ok ts →
      ∃ us, tokenize (normalize (normalize template)) = .ok us ∧
        (expand (normalize template)).map (List.map solid) =
          (expand template).map (List.map solid) ∧
        (us.length = ts.length → (∃ u ∈ us, u.expandable = true) →
          expand (normalize template) = expand template)) ∧
    ∀ f, expand template = .error f → f.code = "E_UNBALANCED_GROUP".toText →
      ∃ g, expand (normalize template) = .error g ∧ g.code = "E_UNBALANCED_GROUP".toText := by
  refine ⟨expand_congr, fun ts htokens => ?_, fun f hf hcode => ?_⟩
  · have hreads := tokenize_eq_ok_iff.1 htokens
    obtain ⟨us, hus, hglued⟩ := exists_glued_of_reads hreads
    refine ⟨us, tokenize_eq_ok_iff.2 hus, ?_, fun hlength hx => ?_⟩
    · rw [map_solid_expand hus, map_solid_expand hreads, hglued.solidRows_eq, solidRows, solidRows,
        rows_settle hreads.isLexeme]
    · obtain rfl := hglued.eq_of_length (by simpa using hlength)
      exact expand_of_settled hreads hus hx
  · cases htokens : tokenize (normalize template) with
    | ok ts =>
      obtain ⟨t, -, rfl⟩ := fault_of_readable htokens hf
      exact absurd hcode (by decide : "E_EMPTY_ALTERNATION".toText ≠ "E_UNBALANCED_GROUP".toText)
    | error f' =>
      obtain rfl : f' = f := Except.error.inj ((expand_of_unreadable htokens).symm.trans hf)
      obtain ⟨g, hg, hgcode⟩ := unbalanced_normalize htokens hcode
      exact ⟨g, expand_of_unreadable hg, hgcode⟩

/-- A template of which one pass leaves nothing to strip; nested lone words of which one is glued to
the word before it; and nested lone words that stand apart, with another group behind them. The last
template is not closed, neither before a second pass nor after it. -/
theorem expand_normalize_nested :
    (normalize (normalize "x  (a)(b  c|d)".toText) = normalize "x  (a)(b  c|d)".toText ∧
      expand (normalize "x  (a)(b  c|d)".toText) = expand "x  (a)(b  c|d)".toText) ∧
    (tokenize (normalize "x((a)) (|b)".toText) =
        .ok [⟨.word, "x".toText⟩, ⟨.alternation, "(a)".toText⟩, ⟨.alternation, "(|b)".toText⟩] ∧
      (expand (normalize "x((a)) (|b)".toText)).map (List.map solid) =
        (expand "x((a)) (|b)".toText).map (List.map solid)) ∧
    (tokenize (normalize "((a)) \x7b((b))|S\x7d (|c)".toText) =
        .ok [⟨.alternation, "(a)".toText⟩, ⟨.slot, "\x7b(b)|S\x7d".toText⟩,
          ⟨.alternation, "(|c)".toText⟩] ∧
      expand (normalize "((a)) \x7b((b))|S\x7d (|c)".toText) =
        expand "((a)) \x7b((b))|S\x7d (|c)".toText) ∧
    expand "((a)) (".toText = .error (.unclosedGroup .round 5 "(a) (".toText) ∧
      ∃ g, expand (normalize "((a)) (".toText) = .error g ∧
        g.code = "E_UNBALANCED_GROUP".toText := by
  have hstripped : normalize (normalize "x  (a)(b  c|d)".toText) =
      normalize "x  (a)(b  c|d)".toText := by
    decide +kernel
  have hglued : tokenize (normalize "x((a)) (|b)".toText) =
      .ok [⟨.word, "x".toText⟩, ⟨.alternation, "(a)".toText⟩, ⟨.alternation, "(|b)".toText⟩] := by
    decide +kernel
  have happart : tokenize (normalize "((a)) \x7b((b))|S\x7d (|c)".toText) =
      .ok [⟨.alternation, "(a)".toText⟩, ⟨.slot, "\x7b(b)|S\x7d".toText⟩,
        ⟨.alternation, "(|c)".toText⟩] := by
    decide +kernel
  have hopen : expand "((a)) (".toText = .error (.unclosedGroup .round 5 "(a) (".toText) := by
    decide +kernel
  obtain ⟨_, -, hsolid, -⟩ := (expand_normalize _).2.1 _ hglued
  obtain ⟨us, hus, -, hsame⟩ := (expand_normalize _).2.1 _ happart
  have htokens : tokenize (normalize (normalize "((a)) \x7b((b))|S\x7d (|c)".toText)) =
      .ok [⟨.word, "a".toText⟩, ⟨.word, "\x7bb|S\x7d".toText⟩, ⟨.alternation, "(|c)".toText⟩] := by
    decide +kernel
  obtain rfl := Except.ok.inj (hus.symm.trans htokens)
  exact ⟨⟨hstripped, (expand_normalize _).1 hstripped⟩, ⟨hglued, hsolid⟩,
    ⟨happart, hsame rfl ⟨⟨.alternation, "(|c)".toText⟩, by simp, rfl⟩⟩, hopen,
    (expand_normalize _).2.2 _ hopen rfl⟩

/-- One lone word in three pairs of brackets is malformed, and its normal form, with two of them
left, is not; and a lone word in two pairs is glued to the word before it in the normal form
only. -/
theorem expand_normalize_ne_of_nested :
    (expand (normalize "(((a)))".toText) = .ok ["a".toText] ∧
      expand "(((a)))".toText = .error (.nestedGroup "((a))".toText "((a))".toText)) ∧
    expand (normalize "x((a))".toText) = .ok ["xa".toText] ∧
      expand "x((a))".toText = .ok ["x a".toText] := by
  decide +kernel

end Phrasebook.Template
