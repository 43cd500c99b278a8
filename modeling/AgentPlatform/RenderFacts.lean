/-
What the rendering of conditional blocks does.

`conditionals_lawful`: no marker runs into another, so `resolve_conditionals`
is one reading of the template with a stack of open blocks
(`resolveConditionals_reads`).
-/
import AgentPlatform.Render
import AgentPlatform.Ascii

namespace AgentPlatform

namespace Render

open Rewriting Blocks

/-! ## The markers -/

/-- A word that begins with a brace written twice and has none behind. -/
def Braced (w : List Char) : Prop := ∃ m, w = '{' :: '{' :: m ∧ m ≠ [] ∧ '{' ∉ m

/-- Such a word does not run into another. -/
theorem Braced.apart {w u t : List Char} (hw : Braced w) (hu : u ≠ []) (h : w <+: u ++ '{' :: '{' :: t) : w <+: u := by
  obtain ⟨m, rfl, hne, hm⟩ := hw
  obtain ⟨r, hr⟩ := h
  rcases List.append_eq_append_iff.1 hr with ⟨v, hv, -⟩ | ⟨v, hv, hrest⟩
  · exact ⟨v, hv.symm⟩
  · cases v with
    | nil => exact ⟨[], by rw [List.append_nil, hv, List.append_nil]⟩
    | cons x v =>
      obtain ⟨rfl, htail⟩ := List.cons_eq_cons.1 hrest
      obtain ⟨y, u, rfl⟩ := List.exists_cons_of_ne_nil hu
      obtain ⟨-, hv⟩ := List.cons_eq_cons.1 hv
      cases u with
      | nil =>
        -- the word would have a third brace
        obtain ⟨-, rfl⟩ := List.cons_eq_cons.1 hv
        obtain ⟨z, m, rfl⟩ := List.exists_cons_of_ne_nil hne
        exact absurd ((List.cons_eq_cons.1 htail).1 ▸ List.mem_cons_self ..) hm
      | cons z u =>
        obtain ⟨-, rfl⟩ := List.cons_eq_cons.1 hv
        exact absurd (by simp) hm

section Words

variable [UnicodeData] [LawfulUnicode]

theorem isSpace_brace : UnicodeData.isSpace '{' = false ∧ UnicodeData.isSpace '}' = false :=
  ⟨LawfulUnicode.isSpace_ascii _ (by decide) (by decide), LawfulUnicode.isSpace_ascii _ (by decide) (by decide)⟩

theorem isNameChar_of_isSpace {c : Char} (h : UnicodeData.isSpace c = true) : isNameChar c = false := by
  refine Bool.eq_false_iff.2 fun hc => ?_
  have hascii : c.toNat < 128 := by
    simp only [isNameChar, Bool.or_eq_true, beq_iff_eq] at hc
    rcases hc with hc | rfl
    · exact Nat.lt_succ_of_lt (Ascii.isAlphanum_range hc).2
    · decide
  have hword := LawfulUnicode.not_isWord_of_isSpace c h
  rw [LawfulUnicode.isWord_ascii c hascii] at hword
  simp only [isNameChar, Bool.or_eq_true, beq_iff_eq] at hc
  simp_all

omit [UnicodeData] [LawfulUnicode] in
theorem isNameChar_of_isName {var : List Char} (h : isName var = true) :
    (∀ c ∈ var, isNameChar c = true) ∧ ∃ c cs, var = c :: cs := by
  cases var with
  | nil => cases h
  | cons c cs =>
    simp only [isName, Bool.and_eq_true, List.all_eq_true] at h
    refine ⟨fun x hx => ?_, c, cs, rfl⟩
    rcases List.mem_cons.1 hx with rfl | hx
    · have hstart := h.1
      simp only [isNameStart, isNameChar, Char.isAlphanum, Bool.or_eq_true] at hstart ⊢
      exact hstart.imp_left .inl
    · exact h.2 x hx

/-- An opening marker of a condition. -/
def IsOpening (c : Condition) (w : List Char) : Prop :=
  ∃ s s', w = openHash ++ (c.kind.text ++ (s ++ (c.var ++ (s' ++ closeBraces)))) ∧
    s ≠ [] ∧ (∀ x ∈ s, UnicodeData.isSpace x = true) ∧ ∀ x ∈ s', UnicodeData.isSpace x = true

theorem openingOf_eq_some {kind : BlockKind} {c : Condition} {t r : List Char} :
    openingOf kind t = some (c, r) ↔ c.kind = kind ∧ ∃ w, t = w ++ r ∧ IsOpening c w := by
  unfold openingOf
  simp only [Option.bind_eq_some_iff, andThen_eq_some, word_eq_some, run_eq_some]
  constructor
  · rintro ⟨t', ⟨t1, rfl, t2, rfl, s, rfl, hs, hlen, -⟩, hrest⟩
    split at hrest
    · rename_i hname
      obtain ⟨rest, hafter, he⟩ := Option.map_eq_some_iff.1 hrest
      obtain ⟨rfl, rfl⟩ := Prod.mk.inj he
      obtain ⟨t3, hspaces, hclose⟩ := andThen_eq_some.1 hafter
      obtain ⟨s', hs', hall, -, -⟩ := run_eq_some.1 hspaces
      rw [word_eq_some.1 hclose] at hs'
      refine ⟨rfl, _, ?_, s, s', rfl, List.ne_nil_of_length_pos hlen, hs, hall⟩
      simp only [List.append_assoc]
      rw [← hs', List.takeWhile_append_dropWhile]
    · cases hrest
  · rintro ⟨rfl, w, rfl, s, s', rfl, hne, hs, hs'⟩
    obtain ⟨hvar, x, xs, hx⟩ := isNameChar_of_isName c.isName
    have hafter : ∀ y ∈ (s' ++ (closeBraces ++ r)).head?, isNameChar y = false := by
      intro y hy
      cases s' with
      | nil =>
        obtain rfl := Option.some.inj hy
        rfl
      | cons z s' =>
        obtain rfl := Option.some.inj hy
        exact isNameChar_of_isSpace (hs' _ (List.mem_cons_self ..))
    obtain ⟨htake, hdrop⟩ := takeWhile_exact hvar hafter
    refine ⟨c.var ++ (s' ++ (closeBraces ++ r)), ⟨_, by simp only [List.append_assoc], _, rfl, s, rfl, hs,
      List.length_pos_of_ne_nil hne, ?_⟩, ?_⟩
    · intro y hy
      rw [hx] at hy
      obtain rfl := Option.some.inj hy
      refine Bool.eq_false_iff.2 fun hspace => ?_
      have hname := hvar x (by rw [hx]; exact List.mem_cons_self ..)
      rw [isNameChar_of_isSpace hspace] at hname
      cases hname
    · have hspaces : run UnicodeData.isSpace 0 (s' ++ (closeBraces ++ r)) = some (closeBraces ++ r) :=
        run_eq_some.2 ⟨s', rfl, hs', Nat.zero_le _, fun y hy => by
          obtain rfl := Option.some.inj hy
          exact isSpace_brace.2⟩
      have hclose : andThen (run UnicodeData.isSpace 0) (word closeBraces) (s' ++ (closeBraces ++ r)) = some r :=
        andThen_eq_some.2 ⟨_, hspaces, word_eq_some.2 rfl⟩
      simp only [htake, hdrop, c.isName, dif_pos, hclose, Option.map_some]

theorem opening_eq_some {c : Condition} {t r : List Char} :
    opening t = some (c, r) ↔ ∃ w, t = w ++ r ∧ IsOpening c w := by
  rw [opening, Option.or_eq_some_iff]
  constructor
  · rintro (h | ⟨-, h⟩)
    · exact (openingOf_eq_some.1 h).2
    · exact (openingOf_eq_some.1 h).2
  · intro h
    cases hkind : c.kind with
    | ifBlock => exact .inl (openingOf_eq_some.2 ⟨hkind, h⟩)
    | unlessBlock =>
      refine .inr ⟨?_, openingOf_eq_some.2 ⟨hkind, h⟩⟩
      cases hif : openingOf .ifBlock t with
      | none => rfl
      | some o =>
        -- the two words begin with different letters
        obtain ⟨w, rfl, s, s', hw, -⟩ := h
        obtain ⟨c', r'⟩ := o
        obtain ⟨hkind', w', ht, v, v', hw', -⟩ := openingOf_eq_some.1 hif
        rw [hw, hw', hkind, hkind', List.append_assoc, List.append_assoc] at ht
        have hhead : some 'u' = some 'i' := congrArg List.head? (List.append_cancel_left ht)
        cases hhead

omit [LawfulUnicode] in
theorem opensBlock_iff {t : List Char} : opensBlock t = true ↔
    ∃ (kind : BlockKind) (x : Char) (r : List Char),
      t = openHash ++ (kind.text ++ x :: r) ∧ UnicodeData.isSpace x = true := by
  have hkind : ∀ kind : BlockKind,
      ((andThen (word openHash) (word kind.text) t).bind List.head?).any UnicodeData.isSpace = true ↔
        ∃ (x : Char) (r : List Char), t = openHash ++ (kind.text ++ x :: r) ∧ UnicodeData.isSpace x = true := by
    intro kind
    rw [Option.any_eq_true]
    simp only [Option.bind_eq_some_iff, andThen_eq_some, word_eq_some]
    constructor
    · rintro ⟨x, ⟨u, ⟨v, rfl, rfl⟩, hx⟩, hspace⟩
      obtain ⟨r, rfl⟩ : ∃ r, u = x :: r := by
        cases u with
        | nil => cases hx
        | cons y r => exact ⟨r, by rw [Option.some.inj hx]⟩
      exact ⟨x, r, rfl, hspace⟩
    · rintro ⟨x, r, rfl, hspace⟩
      exact ⟨x, ⟨x :: r, ⟨_, rfl, rfl⟩, rfl⟩, hspace⟩
  rw [opensBlock, List.any_cons, List.any_cons, List.any_nil, Bool.or_false, Bool.or_eq_true, hkind, hkind]
  constructor
  · rintro (h | h)
    · exact ⟨_, h⟩
    · exact ⟨_, h⟩
  · rintro ⟨kind, h⟩
    cases kind with
    | ifBlock => exact .inl h
    | unlessBlock => exact .inr h

theorem opening_self {c : Condition} {w : List Char} : opening w = some (c, []) ↔ IsOpening c w := by
  rw [opening_eq_some]
  constructor
  · rintro ⟨w', rfl, hw⟩
    rwa [List.append_nil]
  · exact fun hw => ⟨w, (List.append_nil w).symm, hw⟩

omit [UnicodeData] [LawfulUnicode] in
theorem not_mem_text (kind : BlockKind) : '{' ∉ kind.text := by
  cases kind <;> decide

theorem IsOpening.braced {c : Condition} {w : List Char} (h : IsOpening c w) : Braced w := by
  obtain ⟨s, s', rfl, -, hs, hs'⟩ := h
  have hspace : ∀ {u : List Char}, (∀ x ∈ u, UnicodeData.isSpace x = true) → '{' ∉ u := fun hu hmem =>
    absurd ((hu _ hmem).symm.trans isSpace_brace.1) (by decide)
  have hvar : '{' ∉ c.var := fun hmem => absurd ((isNameChar_of_isName c.isName).1 _ hmem) (by decide)
  refine ⟨'#' :: (c.kind.text ++ (s ++ (c.var ++ (s' ++ closeBraces)))), rfl, List.cons_ne_nil _ _, ?_⟩
  simp [closeBraces, not_mem_text, hspace hs, hspace hs', hvar]

omit [LawfulUnicode] in
theorem IsOpening.openHash {c : Condition} {w : List Char} (h : IsOpening c w) : openHash <+: w := by
  obtain ⟨s, s', rfl, -⟩ := h
  exact List.prefix_append ..

omit [UnicodeData] [LawfulUnicode] in
theorem braced_closing (c : Condition) : Braced (closing c) := by
  refine ⟨'/' :: (c.kind.text ++ closeBraces), rfl, List.cons_ne_nil _ _, ?_⟩
  simp [closeBraces, not_mem_text]

theorem braced_marker {m : List Char} (h : conditionals.IsMarker m) : Braced m := by
  rcases h with ⟨c, hc⟩ | ⟨c, rfl⟩
  · exact (opening_self.1 hc).braced
  · exact braced_closing c

omit [UnicodeData] [LawfulUnicode] in
theorem text_ifBlock : BlockKind.ifBlock.text = ['i', 'f'] := by decide

omit [UnicodeData] [LawfulUnicode] in
theorem text_unlessBlock : BlockKind.unlessBlock.text = ['u', 'n', 'l', 'e', 's', 's'] := by decide

omit [UnicodeData] [LawfulUnicode] in
theorem closing_prefix {c c' : Condition} {t : List Char} (h : closing c <+: closing c' ++ t) :
    closing c = closing c' := by
  obtain ⟨r, hr⟩ := h
  cases hc : c.kind <;> cases hc' : c'.kind <;>
    simp [closing, hc, hc', openSlash, closeBraces, text_ifBlock, text_unlessBlock] at hr ⊢

/-- The markers of the blocks do not run into each other. -/
theorem conditionals_lawful : conditionals.Lawful where
  opening_word := fun h => by
    obtain ⟨w, ht, hw⟩ := opening_eq_some.1 h
    exact ⟨w, ht, opening_self.2 hw⟩
  opening_append := fun {w k} r h => opening_eq_some.2 ⟨w, rfl, opening_self.1 h⟩
  closing_ne := fun c => by simp [conditionals, closing, openSlash]
  opens_nil := rfl
  opens_append := fun {t} u h => by
    obtain ⟨kind, x, r, rfl, hx⟩ := opensBlock_iff.1 h
    exact opensBlock_iff.2 ⟨kind, x, r ++ u, by simp, hx⟩
  opens_opening := fun {w c} h => by
    obtain ⟨s, s', rfl, hne, hs, -⟩ := opening_self.1 h
    obtain ⟨x, s, rfl⟩ := List.exists_cons_of_ne_nil hne
    exact opensBlock_iff.2 ⟨c.kind, x, _, rfl, hs x (List.mem_cons_self ..)⟩
  opens_closing := fun c t => by
    refine Bool.eq_false_iff.2 fun h => ?_
    have hopens : opensBlock (closing c ++ t) = true := h
    obtain ⟨kind, x, r, ht, -⟩ := opensBlock_iff.1 hopens
    simp [closing, openSlash, openHash] at ht
  apart := fun {w u m t} hm hw hu h => by
    obtain ⟨m', rfl, -⟩ := braced_marker hm
    exact (braced_marker hw).apart hu h
  alone := fun {w m t} hm hw h => by
    obtain ⟨r, hr⟩ := h
    rcases hm with ⟨c, hc⟩ | ⟨c, rfl⟩
    · have hm := opening_self.1 hc
      rcases hw with ⟨c', hc'⟩ | ⟨c', rfl⟩
      · -- what is read at one place is one marker
        have hread : opening (m ++ t) = some (c, t) := opening_eq_some.2 ⟨m, rfl, hm⟩
        have hread' : opening (w ++ r) = some (c', r) := opening_eq_some.2 ⟨w, rfl, opening_self.1 hc'⟩
        rw [hr, hread] at hread'
        obtain ⟨-, rfl⟩ := Prod.mk.inj (Option.some.inj hread')
        exact List.append_cancel_right hr
      · obtain ⟨s, s', rfl, -⟩ := hm
        simp [conditionals, closing, openSlash, openHash] at hr
    · rcases hw with ⟨c', hc'⟩ | ⟨c', rfl⟩
      · obtain ⟨s, s', rfl, -⟩ := opening_self.1 hc'
        simp [conditionals, closing, openSlash, openHash] at hr
      · exact closing_prefix ⟨r, hr⟩
  opens_apart := fun {u m t} hm hu h => by
    obtain ⟨m', rfl, -⟩ := braced_marker hm
    obtain ⟨kind, x, r, ht, hx⟩ := opensBlock_iff.1 h
    have hbraced : Braced (openHash ++ (kind.text ++ [x])) := by
      refine ⟨'#' :: (kind.text ++ [x]), rfl, List.cons_ne_nil _ _, ?_⟩
      have hne : '{' ≠ x := by
        rintro rfl
        rw [isSpace_brace.1] at hx
        cases hx
      simp [not_mem_text, hne]
    have hpre : openHash ++ (kind.text ++ [x]) <+: u ++ '{' :: '{' :: (m' ++ t) := by
      refine ⟨r, ?_⟩
      simp only [List.cons_append] at ht
      rw [ht]
      simp
    obtain ⟨r', hr'⟩ := hbraced.apart hu hpre
    exact opensBlock_iff.2 ⟨kind, x, r', by rw [← hr']; simp, hx⟩

end Words

/-! ## Resolving -/

theorem unclosedAt_eq_none {text : List Char} : unclosedAt text = none ↔ ¬ openHash <:+: text := by
  rw [unclosedAt, Option.map_eq_none_iff, firstMatch_eq_none]
  constructor
  · rintro ⟨hdead, -⟩ ⟨a, b, rfl⟩
    have := hdead (openHash ++ b) ⟨a, by simp⟩ (by simp [openHash])
    simp [unclosed] at this
  · intro h
    refine ⟨fun u hu _ => ?_, rfl⟩
    rw [List.append_nil]
    refine if_neg fun hpre => ?_
    exact h ((List.isPrefixOf_iff_prefix.1 hpre).isInfix.trans hu.isInfix)

section Reading

variable [UnicodeData]

theorem checkClosed_ok {text : List Char} (h : ¬ openHash <:+: text) : checkClosed text = .ok text := by
  rw [checkClosed, unclosedAt_eq_none.2 h]

theorem checkClosed_error {text : List Char} (h : openHash <:+: text) :
    ∃ e, checkClosed text = .error e ∧ e.kind = .valueError := by
  rw [checkClosed]
  cases hat : unclosedAt text with
  | none => exact absurd h (unclosedAt_eq_none.1 hat)
  | some place => exact ⟨_, rfl, rfl⟩

theorem renders_unique {text : List Char} {environ : Environ} {result result' : Except Exn (List Char)}
    (h : Renders text environ result) (h' : Renders text environ result') : result = result' :=
  Option.some.inj ((h _ (Nat.lt_succ_self _)).symm.trans (h' _ (Nat.lt_succ_self _)))

variable [LawfulUnicode]

theorem settled_empty : conditionals.SettledReading ⟨[], []⟩ := ⟨trivial, conditionals_lawful.settled_nil _⟩

/-- `resolve_conditionals` is one reading of the template. -/
theorem renders_reads {text : List Char} {environ : Environ} {r : Reading Char Condition}
    (h : conditionals.Reads (keep environ) ⟨[], []⟩ text r) :
    Renders text environ (checkClosed r.whole) := fun n hn => by
  have hresolves := conditionals_lawful.resolves_reads h settled_empty n hn
  have htext : (⟨[], []⟩ : Reading Char Condition).whole ++ text = text := rfl
  rw [htext] at hresolves
  rw [resolveConditionals, hresolves, Option.map_some]

theorem exists_reads (text : List Char) (environ : Environ) :
    ∃ r, conditionals.Reads (keep environ) ⟨[], []⟩ text r ∧ Renders text environ (checkClosed r.whole) := by
  obtain ⟨r, hr⟩ : ∃ r, conditionals.Reads (keep environ) ⟨[], []⟩ text r :=
    conditionals_lawful.exists_reads settled_empty
  exact ⟨r, hr, renders_reads hr⟩

theorem opening_mark (c : Condition) : conditionals.opening (mark c) = some (c, []) := by
  refine opening_self.2 ⟨[' '], [], by simp [mark], by simp, fun x hx => ?_, by simp⟩
  rw [List.mem_singleton.1 hx]
  exact LawfulUnicode.isSpace_blank

/-! ## Templates -/

/-- Where the texts that come together make no marker, nothing is left open. -/
theorem reads_template {template : Template} {environ : Environ}
    (hjoined : JoinedAll conditionals (keep environ) template) (htop : ¬ openHash <:+: template.value environ) :
    conditionals.Reads (keep environ) ⟨[], []⟩ template.print ⟨[], template.value environ⟩ := by
  have hnone : conditionals.NoOpening (template.value environ) := by
    intro w hw c hopening
    exact htop ((opening_self.1 hopening).openHash.isInfix.trans hw)
  have hreads : conditionals.Reads (keep environ) ⟨[], []⟩ (template.print ++ []) ⟨[], template.value environ⟩ :=
    conditionals_lawful.reads_all opening_mark template hjoined ⟨hnone, fun b hb => (by cases hb)⟩ (.done _)
  rwa [List.append_nil] at hreads

/-- **A template is rendered by its structure**, where the texts that come
together make no marker. -/
theorem renders_template (template : Template) (environ : Environ)
    (hjoined : JoinedAll conditionals (keep environ) template) (htop : ¬ openHash <:+: template.value environ) :
    Renders template.print environ (.ok (template.value environ)) := by
  have hrenders := renders_reads (reads_template hjoined htop)
  rwa [Reading.whole, surround, List.nil_append, checkClosed_ok htop] at hrenders

end Reading

/-- Two blocks, one in the other, both kept. -/
theorem renders_template_nested : let _ := asciiData
    let template : Template :=
      [.block ⟨.ifBlock, ['A'], rfl⟩ [.text ['a'], .block ⟨.unlessBlock, ['B'], rfl⟩ [.text ['b']]]]
    Renders template.print (fun var => if var = ['A'] then some "on".toList else none) (.ok ['a', 'b']) := by
  intro _ template
  have : LawfulUnicode := asciiData_lawful
  have hjoined : JoinedAll conditionals (keep fun var => if var = ['A'] then some "on".toList else none) template := by
    refine ⟨⟨⟨fun h => ?_, by decide⟩, trivial, ⟨⟨fun h => ?_, by decide⟩, trivial, trivial⟩, trivial⟩,
      trivial⟩
    · exact absurd (any_opens.2 h) (by decide)
    · exact absurd (any_opens.2 h) (by decide)
  exact renders_template template _ hjoined (by decide)

/-- What two blocks that are dropped leave comes together to a marker. -/
theorem not_renders_template : let _ := asciiData
    let a : Condition := ⟨.ifBlock, ['A'], rfl⟩
    let template : Template := [.text ['{'], .block a [], .text ['{'], .block a [], .text ['#']]
    (∀ s ∈ leavesAll template, PlainText s) ∧
      ¬ Renders template.print (fun _ => none) (.ok (template.value fun _ => none)) := by
  intro _ a template
  refine ⟨by unfold PlainText; decide, fun h => ?_⟩
  have hresult := h (template.print.length + 1) (Nat.lt_succ_self _)
  have herror : (resolveConditionals (template.print.length + 1) template.print fun _ => none).map Except.toOption =
      some none := by decide
  rw [hresult] at herror
  cases herror

section Reading

variable [UnicodeData] [LawfulUnicode]

/-! ## Unbalanced templates -/

/-- No marker of a block is in the text. -/
def NoMarker (text : List Char) : Prop :=
  ∀ kind : BlockKind, ¬ openHash ++ kind.text <:+: text ∧ ¬ openSlash ++ (kind.text ++ closeBraces) <:+: text

/-- An unbalanced template is an error. -/
def RejectsUnbalanced (text : List Char) (environ : Environ) : Prop :=
  ∃ result, Renders text environ result ∧
    ((∃ e, result = .error e ∧ e.kind = .valueError) ∨ ∃ rendered, result = .ok rendered ∧ NoMarker rendered)

/-- A block is left open, or outside the blocks something that opens none. -/
def LeavesOpen (r : Reading Char Condition) : Prop := r.stack ≠ [] ∨ openHash <:+: r.text

/-- Outside the blocks a closing marker is left. -/
def LeavesClosing (r : Reading Char Condition) : Prop := ∃ c, closing c <:+: r.text

omit [UnicodeData] [LawfulUnicode] in
theorem noMarker_iff {text : List Char} (h : ¬ openHash <:+: text) : NoMarker text ↔ ∀ c, ¬ closing c <:+: text := by
  constructor
  · exact fun hno c => (hno c.kind).2
  · intro hno kind
    exact ⟨fun hopen => h ((List.prefix_append ..).isInfix.trans hopen), hno ⟨kind, ['A'], rfl⟩⟩

/-- What is left open is seen by the check. -/
theorem openHash_whole {r : Reading Char Condition} (hr : conditionals.SettledReading r) :
    openHash <:+: r.whole ↔ LeavesOpen r := by
  obtain ⟨stack, text⟩ := r
  cases stack with
  | nil => simp [LeavesOpen, Reading.whole, surround]
  | cons b stack =>
    refine iff_of_true ?_ (.inl (List.cons_ne_nil _ _))
    refine (opening_self.1 hr.stack.1).openHash.isInfix.trans ⟨surround stack ++ b.before, text, ?_⟩
    simp [Reading.whole, surround]

/-- An unbalanced template is judged by what its reading leaves. -/
theorem rejectsUnbalanced_of_reads {text : List Char} {environ : Environ} {r : Reading Char Condition}
    (h : conditionals.Reads (keep environ) ⟨[], []⟩ text r) :
    RejectsUnbalanced text environ ↔ LeavesOpen r ∨ ¬ LeavesClosing r := by
  have hopen := openHash_whole (conditionals_lawful.reads_settled h settled_empty)
  have hresult : ∀ {result}, Renders text environ result → result = checkClosed r.whole := fun hresult =>
    renders_unique hresult (renders_reads h)
  by_cases hleft : LeavesOpen r
  · exact iff_of_true ⟨_, renders_reads h, .inl (checkClosed_error (hopen.2 hleft))⟩ (.inl hleft)
  · have hnone := mt hopen.1 hleft
    have hwhole : r.whole = r.text := by
      have hstack : r.stack = [] := Classical.not_not.1 fun hne => hleft (.inl hne)
      rw [Reading.whole, hstack, surround, List.nil_append]
    have hno : NoMarker r.whole ↔ ¬ LeavesClosing r := by
      rw [noMarker_iff hnone, hwhole, LeavesClosing, not_exists]
    constructor
    · rintro ⟨result, hrenders, ⟨e, he, -⟩ | ⟨rendered, he, hgood⟩⟩
      · have := hresult hrenders
        rw [he, checkClosed_ok hnone] at this
        cases this
      · have := hresult hrenders
        rw [he, checkClosed_ok hnone] at this
        exact .inr (hno.1 (Except.ok.inj this ▸ hgood))
    · intro hgood
      exact ⟨_, renders_reads h, .inr ⟨_, checkClosed_ok hnone, hno.2 (hgood.resolve_left hleft)⟩⟩

/-- **When an unbalanced template is an error**: the reading of the template
leaves a block open, or outside the blocks something that opens none; or it
leaves no closing marker there. -/
theorem rejectsUnbalanced_iff (text : List Char) (environ : Environ) : RejectsUnbalanced text environ ↔
    ∃ r, conditionals.Reads (keep environ) ⟨[], []⟩ text r ∧ (LeavesOpen r ∨ ¬ LeavesClosing r) := by
  constructor
  · intro h
    obtain ⟨r, hr, -⟩ := exists_reads text environ
    exact ⟨r, hr, (rejectsUnbalanced_of_reads hr).1 h⟩
  · rintro ⟨r, hr, h⟩
    exact (rejectsUnbalanced_of_reads hr).2 h

end Reading

/-- A block that is not closed. -/
theorem rejectsUnbalanced_unclosed : let _ := asciiData
    RejectsUnbalanced (mark ⟨.ifBlock, ['A'], rfl⟩) fun _ => none := by
  intro _
  have : LawfulUnicode := asciiData_lawful
  let a : Condition := ⟨.ifBlock, ['A'], rfl⟩
  have hreads : conditionals.Reads (keep fun _ => none) ⟨[], []⟩ (mark a ++ []) ⟨[⟨a, mark a, []⟩], []⟩ :=
    conditionals_lawful.reads_opening (opening_mark a) (.done _)
  rw [List.append_nil] at hreads
  exact (rejectsUnbalanced_iff _ _).2 ⟨_, hreads, .inl (.inl (List.cons_ne_nil _ _))⟩

/-- A closing marker alone is rendered as it is. -/
theorem not_rejectsUnbalanced : let _ := asciiData
    let text := 'a' :: closing ⟨.ifBlock, ['A'], rfl⟩
    Renders text (fun _ => none) (.ok text) ∧ ¬ RejectsUnbalanced text fun _ => none := by
  intro _ text
  have hrenders : Renders text (fun _ => none) (.ok text) := fun n hn => by
    obtain ⟨n, rfl⟩ : ∃ m, n = m + 1 := ⟨n - 1, by omega⟩
    have hnone : conditionals.rewrite (keep fun _ => none) text = none := by decide
    rw [resolveConditionals, Markers.resolve, hnone, Option.map_some]
    exact congrArg some (checkClosed_ok (by decide))
  refine ⟨hrenders, ?_⟩
  rintro ⟨result, hresult, ⟨e, he, -⟩ | ⟨rendered, he, hno⟩⟩
  · have := renders_unique hresult hrenders
    rw [he] at this
    cases this
  · have := renders_unique hresult hrenders
    rw [he] at this
    obtain rfl := Except.ok.inj this
    exact absurd (hno .ifBlock).2 (by decide)

end Render

end AgentPlatform
