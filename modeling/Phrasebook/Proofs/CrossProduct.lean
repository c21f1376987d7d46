import Phrasebook.Proofs.Branching

/-!
# Expansion as a cross product

Expansion goes through joined and normalized texts, one group at a time. What it denotes needs one
pass: the rows of a template are the lexicographic product of the choices of its tokens (`rows`),
and the phrases of the template read, in order, as its rows (`expand_eq_rows`). The number of
phrases is therefore the product of the numbers of choices (`count_eq_map_length`).
-/

namespace Phrasebook.Template

/-- All rows with one element of each list, in lexicographic order: the first list varies
slowest. -/
def crossProduct {α : Type} : List (List α) → List (List α)
  | [] => [[]]
  | xs :: xss => xs.flatMap fun x => (crossProduct xss).map (x :: ·)

def tokenTexts (s : Text) : Except Fault (List Text) :=
  (tokenize s).map fun ts => ts.map (·.text)

/-- The rows of texts that a row of tokens stands for. -/
def rows (ts : List Token) : Except Fault (List (List Text)) :=
  (ts.mapM Token.choices).map fun css => (crossProduct css).map List.flatten

lemma rows_nil : rows [] = .ok [[]] := rfl

lemma rows_cons (t : Token) (ts : List Token) :
    rows (t :: ts) = t.choices.bind fun cs =>
      (rows ts).map fun rs => cs.flatMap fun c => rs.map (c ++ ·) := by
  unfold rows
  rw [List.mapM_cons]
  cases t.choices with
  | error f => rfl
  | ok cs =>
    cases ts.mapM Token.choices with
    | error f => rfl
    | ok css =>
      simp only [Bind.bind, Except.bind, Pure.pure, Except.pure, Except.map, crossProduct,
        List.map_flatMap, List.map_map]
      rfl

lemma rows_words_append {ws : List Token} (hws : ∀ u ∈ ws, u.expandable = false)
    (ts : List Token) :
    rows (ws ++ ts) = (rows ts).map fun rs => rs.map (ws.map (·.text) ++ ·) := by
  induction ws with
  | nil =>
    rw [List.nil_append]
    cases rows ts <;> simp [Except.map]
  | cons w ws ih =>
    rw [List.cons_append, rows_cons, choices_of_not_expandable (hws w (by simp)),
      ih fun u hu => hws u (by simp [hu])]
    cases rows ts <;> simp [Except.map, Except.bind, Function.comp_def]

lemma rows_settle {ts : List Token} (hts : ∀ u ∈ ts, u.IsLexeme) :
    rows (ts.map Token.settle) = rows ts := by
  induction ts with
  | nil => rfl
  | cons t ts ih =>
    rw [List.map_cons, rows_cons, rows_cons, (hts t (by simp)).settling.choices,
      ih fun u hu => hts u (by simp [hu])]

lemma Except.map_eq_ok {ε α β : Type} {x : Except ε α} {f : α → β} {b : β}
    (h : x.map f = .ok b) : ∃ a, x = .ok a ∧ f a = b := by
  cases x with
  | error e => simp [Except.map] at h
  | ok a => exact ⟨a, rfl, Except.ok.inj h⟩

/-- The phrases of a template are those of the templates that a step leaves. -/
lemma exists_of_mem_expand {template : Text} {us : Choices Text}
    (hbranch : branch template = .ok (.templates us)) {ps : List Text}
    (h : expand template = .ok ps) {p : Text} (hp : p ∈ ps) :
    ∃ u ∈ us.toList, ∃ qs, expand u = .ok qs ∧ p ∈ qs := by
  rw [expand_of_templates hbranch] at h
  obtain ⟨pss, hpss, rfl⟩ := Except.map_eq_ok h
  obtain ⟨qs, hqs, hpq⟩ := List.mem_flatten.1 hp
  obtain ⟨u, hu, hexpand⟩ := exists_of_mem_mapM hpss hqs
  exact ⟨u, hu, qs, hexpand, hpq⟩

lemma Except.map_eq_error {ε α β : Type} {x : Except ε α} {f : α → β} {e : ε}
    (h : x.map f = .error e) : x = .error e := by
  cases x with
  | error e' => exact congrArg _ (Except.error.inj h)
  | ok a => simp [Except.map] at h

lemma Except.map_map {ε α β γ : Type} (x : Except ε α) (f : α → β) (g : β → γ) :
    (x.map f).map g = x.map fun a => g (f a) := by
  cases x <;> rfl

lemma mapM_flatten_of_forall {ε α β γ : Type} {f : α → Except ε (List β)} {g : β → γ}
    {k : α → List γ} {l : List α} (h : ∀ a ∈ l, ∃ bs, f a = .ok bs ∧ bs.map g = k a) :
    ∃ bss, l.mapM f = .ok bss ∧ bss.flatten.map g = l.flatMap k := by
  induction l with
  | nil => exact ⟨[], rfl, rfl⟩
  | cons a l ih =>
    obtain ⟨bs, hbs, hmap⟩ := h a (by simp)
    obtain ⟨bss, hbss, hflat⟩ := ih fun b hb => h b (by simp [hb])
    refine ⟨bs :: bss, ?_, ?_⟩
    · rw [List.mapM_cons, hbs, hbss]
      rfl
    · rw [List.flatten_cons, List.map_append, hmap, hflat, List.flatMap_cons]

/-- Lists that come from the same rows, each by its own function, come from them together: they
fail when the rows do, and else each function goes through all rows before the next one. -/
lemma mapM_flatten_map {ε α β γ δ : Type} {f : α → Except ε (List β)} {g : β → γ}
    {k : α → δ → γ} {x : Except ε (List δ)} {l : List α} (hne : l ≠ [])
    (h : ∀ a ∈ l, (f a).map (fun bs => bs.map g) = x.map fun rs => rs.map (k a)) :
    (l.mapM f).map (fun bss => bss.flatten.map g) =
      x.map fun rs => l.flatMap fun a => rs.map (k a) := by
  cases x with
  | error e =>
    obtain ⟨a, l, rfl⟩ := List.exists_cons_of_ne_nil hne
    rw [List.mapM_cons, Except.map_eq_error (h a (by simp))]
    rfl
  | ok rs =>
    obtain ⟨bss, hbss, hflat⟩ := mapM_flatten_of_forall fun a ha => Except.map_eq_ok (h a ha)
    rw [hbss]
    exact congrArg Except.ok hflat

lemma Leftmost.rows {template : Text} {head tail : List Token} {t : Token}
    (h : Leftmost template head t tail) :
    rows (head ++ t :: tail) = t.choices.bind fun cs => (rows tail).map fun rs =>
      cs.flatMap fun c => rs.map (head.map (·.text) ++ c ++ ·) := by
  rw [rows_words_append h.words, rows_cons]
  cases t.choices with
  | error f => rfl
  | ok cs =>
    cases Template.rows tail with
    | error f => rfl
    | ok rs => simp [Except.map, Except.bind, List.map_flatMap, Function.comp_def]

lemma Leftmost.rows_substitute {template : Text} {head tail : List Token} {t : Token}
    (h : Leftmost template head t tail) (sub : Option Text) :
    Template.rows (head ++ (t.textsOf sub).map .ofWord ++ tail.map Token.settle) =
      (Template.rows tail).map fun rs => rs.map (head.map (·.text) ++ t.textsOf sub ++ ·) := by
  rw [rows_words_append (h.words_substitute sub),
    rows_settle fun u hu => h.isLexeme u (by simp [hu])]
  simp [Function.comp_def]

/-- If each template that a step leaves reads as the rows with its substitution, they read together
as the rows of their parent. -/
lemma Leftmost.expand_templates {template : Text} {head tail : List Token} {t : Token}
    (h : Leftmost template head t tail) {subs : Choices (Option Text)}
    (hs : t.branches = .ok subs)
    (hbranch : branch template =
      .ok (.templates (subs.map fun sub => substitute head sub tail)))
    (hchild : ∀ sub ∈ subs.toList, (expand (substitute head sub tail)).map
      (fun ps => ps.map tokenTexts) = (Template.rows tail).map fun rs =>
        rs.map fun r => .ok (head.map (·.text) ++ t.textsOf sub ++ r)) :
    (expand template).map (fun ps => ps.map tokenTexts) =
      (Template.rows (head ++ t :: tail)).map fun rs => rs.map .ok := by
  have hrows : Template.rows (head ++ t :: tail) = (Template.rows tail).map fun rs =>
      (subs.toList.map t.textsOf).flatMap fun c => rs.map (head.map (·.text) ++ c ++ ·) := by
    rw [h.rows, choices_of_branches hs]
    rfl
  have hphrases := mapM_flatten_map (List.cons_ne_nil subs.first subs.others) hchild
  rw [expand_of_templates hbranch, Choices.toList_map, List.mapM_map, Except.map_map, hrows,
    Except.map_map]
  refine hphrases.trans ?_
  simp only [Choices.toList, List.map_flatMap, List.flatMap_map, List.map_map, Function.comp_def]

/-- The phrases of a template read, in order, as the rows of its tokens; where the rows fail, so
does expansion, and for the same reason. -/
theorem expand_eq_rows {template : Text} {ts : List Token} (h : Reads (normalize template) ts) :
    (expand template).map (fun ps => ps.map tokenTexts) =
      (rows ts).map fun rs => rs.map .ok := by
  induction template using branch_induction generalizing ts with
  | step template ih =>
    have hstep := branch_step template
    generalize hbranch : branch template = result at hstep
    cases hstep with
    | unreadable hf => simp [tokenize_eq_ok_iff.2 h] at hf
    | phrase hreads hwords =>
      obtain rfl := h.unique hreads
      have hrows := rows_words_append hwords []
      rw [List.append_nil, rows_nil] at hrows
      rw [expand_of_phrase hbranch, hrows]
      simp [Except.map, tokenTexts, tokenize_eq_ok_iff.2 h]
    | stuck hleft hf =>
      obtain rfl := h.unique hleft.reads
      rw [expand_of_error hbranch, hleft.rows, choices_of_branches_error hf]
      rfl
    | @templates head tail t subs hleft hs =>
      obtain rfl := h.unique hleft.reads
      refine hleft.expand_templates hs hbranch fun sub hsub => ?_
      have hmem : substitute head sub tail ∈
          (subs.map fun sub => substitute head sub tail).toList := by
        rw [Choices.toList_map]
        exact List.mem_map_of_mem (f := fun sub => substitute head sub tail) hsub
      rw [ih _ hbranch _ hmem (hleft.reads_substitute hs hsub), hleft.rows_substitute,
        Except.map_map]
      simp only [List.map_map, Function.comp_def]

/-- The text of a group between its round brackets. -/
def Token.content (t : Token) : Text :=
  match t.kind with
  | .slot => (slotParts (Text.inside t.text)).1
  | _ => Text.inside t.text

/-- What a group makes of the alternatives between its round brackets. -/
def Token.substitutions (t : Token) (ws : Choices Text) : Choices (Option Text) :=
  match t.kind with
  | .slot => ws.map fun w =>
    some (char '\x7b' :: w ++ (slotParts (Text.inside t.text)).2 ++ [char '\x7d'])
  | _ =>
    if ws.others = [] ∧ 1 < (t.content.splitOn (char '|')).length then ⟨some ws.first, [none]⟩
    else ws.map some

lemma Token.branches_eq_map {t : Token} (hx : t.expandable = true) :
    t.branches = (alternativesOf t.text t.content).map t.substitutions := by
  cases hk : t.kind with
  | word => simp [expandable, hk] at hx
  | slot =>
    simp only [branches, content, hk]
    cases alternativesOf t.text (slotParts (Text.inside t.text)).1 with
    | error f => rfl
    | ok ws => simp only [Except.map, substitutions, hk, Bind.bind, Except.bind]
  | alternation =>
    simp only [branches, content, hk]
    cases alternativesOf t.text (Text.inside t.text) with
    | error f => rfl
    | ok ws =>
      simp only [Except.map, substitutions, content, hk, Bind.bind, Except.bind]
      split_ifs <;> rfl

lemma Token.exists_branches {t : Token} (h : t.expandable = true → alternatives t.content ≠ []) :
    ∃ subs, t.branches = .ok subs := by
  by_cases hx : t.expandable = true
  · obtain ⟨w, ws, hws⟩ := List.exists_cons_of_ne_nil (h hx)
    exact ⟨_, by rw [branches_eq_map hx, alternativesOf, hws]; rfl⟩
  · have hk : t.kind = .word := by simpa [expandable] using hx
    exact ⟨_, by rw [branches, hk]⟩

lemma exists_mapM_choices {ts : List Token}
    (h : ∀ t ∈ ts, t.expandable = true → alternatives t.content ≠ []) :
    ∃ css, ts.mapM Token.choices = .ok css := by
  induction ts with
  | nil => exact ⟨[], rfl⟩
  | cons t ts ih =>
    obtain ⟨subs, hsubs⟩ := Token.exists_branches (h t (by simp))
    obtain ⟨css, hcss⟩ := ih fun u hu => h u (by simp [hu])
    refine ⟨subs.toList.map t.textsOf :: css, ?_⟩
    rw [List.mapM_cons, choices_of_branches hsubs, hcss]
    rfl

/-- A template whose tokens are found, and each of whose groups has an alternative, stands for the
full cross product: its phrases read, in order and with repetitions, as the lexicographic product
of the choices of its tokens. -/
theorem expand_eq_crossProduct {template : Text} {ts : List Token}
    (htokens : tokenize (normalize template) = .ok ts)
    (hgroups : ∀ t ∈ ts, t.expandable = true → alternatives t.content ≠ []) :
    ∃ ps css, expand template = .ok ps ∧ ts.mapM Token.choices = .ok css ∧
      ps.map tokenTexts = (crossProduct css).map fun row => .ok row.flatten := by
  obtain ⟨css, hcss⟩ := exists_mapM_choices hgroups
  have hrows := expand_eq_rows (tokenize_eq_ok_iff.1 htokens)
  rw [rows, hcss] at hrows
  obtain ⟨ps, hps, hmap⟩ := Except.map_eq_ok hrows
  refine ⟨ps, css, hps, hcss, ?_⟩
  simpa [Function.comp_def] using hmap

/-- Glued groups, alternatives of several words, an omission, a slot with blanks and a nested lone
word, all in one template. -/
theorem expand_eq_crossProduct_glued :
    tokenize (normalize "go(|far  off)\x7b( a  b |c)|S T\x7d((d))".toText) =
        .ok [⟨.word, "go".toText⟩, ⟨.alternation, "(|far  off)".toText⟩,
          ⟨.slot, "\x7b( a  b |c)|S T\x7d".toText⟩, ⟨.alternation, "(d)".toText⟩] ∧
      ∃ ps css, expand "go(|far  off)\x7b( a  b |c)|S T\x7d((d))".toText = .ok ps ∧
        [⟨.word, "go".toText⟩, ⟨.alternation, "(|far  off)".toText⟩,
          ⟨.slot, "\x7b( a  b |c)|S T\x7d".toText⟩, ⟨.alternation, "(d)".toText⟩].mapM
            Token.choices = .ok css ∧
        ps.map tokenTexts = (crossProduct css).map fun row => .ok row.flatten :=
  have htokens : tokenize (normalize "go(|far  off)\x7b( a  b |c)|S T\x7d((d))".toText) = _ := by
    decide +kernel
  ⟨htokens, expand_eq_crossProduct htokens (by decide +kernel)⟩

end Phrasebook.Template
