/-
The two masks on marked texts, and what becomes of one bearer credential.

The marks tell the characters of the occurrence in question from all others,
so "masked whole" is that none of them is left. It depends on two things: the
keyword has to be seen, which neither a JWT nor an earlier bearer match running
into it allows, and the token has to end where the mask does. The mask stops at
the first of `~`, `+`, `/` and `=`, and at the marker of a JWT.
-/
import AgentPlatform.RedactionFacts

namespace AgentPlatform

namespace Redaction

open Rewriting

/-! ## The masks -/

/-- A text with one mark throughout. -/
def marked {μ : Type} (x : μ) (t : List Char) : List (Char × μ) := t.map (·, x)

section Masks

variable {μ : Type} {f : Piece Char} {marker : List Char} {u : μ}

@[simp] theorem map_marked (x : μ) (t : List Char) : (marked x t).map Prod.fst = t := by
  simp [marked, Function.comp_def]

@[simp] theorem marked_append (x : μ) (s t : List Char) : marked x (s ++ t) = marked x s ++ marked x t :=
  List.map_append

@[simp] theorem marked_cons (x : μ) (c : Char) (t : List Char) : marked x (c :: t) = (c, x) :: marked x t := rfl

@[simp] theorem marked_nil (x : μ) : marked x [] = [] := rfl

theorem mem_marked {x : μ} {t : List Char} {c : Char × μ} (h : c ∈ marked x t) : c.1 ∈ t ∧ c.2 = x := by
  obtain ⟨d, hd, rfl⟩ := List.mem_map.1 h
  exact ⟨hd, rfl⟩

@[simp] theorem mask_nil : mask f marker u [] = [] := rfl

/-- The characters of a masked text are those of the text masked without marks. -/
@[simp] theorem map_mask (t : List (Char × μ)) :
    (mask f marker u t).map Prod.fst = sub f.pattern marker 0 (t.map Prod.fst) := by
  rw [mask, map_sub]
  exact congrArg (sub f.pattern · 0 _) (map_marked u marker)

/-- A mask leaves characters of the text and puts in unmarked ones. -/
theorem mem_mask {t : List (Char × μ)} {c : Char × μ} (h : c ∈ mask f marker u t) : c ∈ t ∨ c.2 = u := by
  rw [mask, ← scanned_nil_right] at h
  exact (mem_scanned h).imp_right fun hc => (mem_marked hc).2

theorem mask_separated (hf : f.Steady) {x : Char} (hx : Separates f.pattern x) (y : μ) (a t : List (Char × μ)) :
    mask f marker u (a ++ (x, y) :: t) = mask f marker u a ++ (x, y) :: mask f marker u t :=
  Separates.sub_append (hf.pattern.comap Prod.fst) (Separates.comap (f := Prod.fst) (y := (x, y)) hx) a t

theorem mask_cons_of_none {c : Char × μ} {t : List (Char × μ)} (h : f ((c :: t).map Prod.fst) = none) :
    mask f marker u (c :: t) = c :: mask f marker u t :=
  sub_none (pattern_eq_none.2 h)

theorem mask_eq_self {t : List (Char × μ)} (h : ∀ s, s <:+ t → f (s.map Prod.fst) = none) : mask f marker u t = t :=
  sub_eq_self fun s hs _ => pattern_eq_none.2 (h s hs)

end Masks

/-- A match is replaced, and the mask goes on behind it. -/
theorem mask_match {μ : Type} {f : Piece Char} {marker : List Char} {u : μ} {s t : List (Char × μ)} (hs : s ≠ [])
    (h : f ((s ++ t).map Prod.fst) = some (t.map Prod.fst)) :
    mask f marker u (s ++ t) = marked u marker ++ mask f marker u t := by
  obtain ⟨c, s, rfl⟩ := List.exists_cons_of_ne_nil hs
  have hn : (fun t : List (Char × μ) => f.pattern (t.map Prod.fst)) (c :: (s ++ t)) = some (s.length + 1) := by
    dsimp only
    rw [Piece.pattern, ← List.cons_append, h, Option.map_some, List.map_append, List.length_append, Nat.add_sub_cancel,
      List.length_map]
    rfl
  rw [mask, List.cons_append, sub_match (m := fun t : List (Char × μ) => f.pattern (t.map Prod.fst)) hn, sub_drop,
    Nat.add_sub_cancel, List.drop_left]
  rfl

/-- Parts no match goes over are masked apart. -/
theorem mask_append {μ : Type} {f : Piece Char} {marker : List Char} {u : μ} (hf : f.Steady) {s t : List (Char × μ)}
    (h : leftover f.pattern 0 (s.map Prod.fst) (t.map Prod.fst) = 0) :
    mask f marker u (s ++ t) = mask f marker u s ++ mask f marker u t := by
  rw [← leftover_map Prod.fst] at h
  rw [mask, sub_append, h, scanned_eq (hf.pattern.comap Prod.fst) h]
  rfl

/-- Nothing in the text is marked. -/
def AllUnmarked (t : List (Char × Bool)) : Prop := ∀ c ∈ t, c.2 = false

@[simp] theorem allUnmarked_append {s t : List (Char × Bool)} :
    AllUnmarked (s ++ t) ↔ AllUnmarked s ∧ AllUnmarked t := by
  simp [AllUnmarked, or_imp, forall_and]

@[simp] theorem allUnmarked_cons {c : Char × Bool} {t : List (Char × Bool)} :
    AllUnmarked (c :: t) ↔ c.2 = false ∧ AllUnmarked t := by
  simp [AllUnmarked]

@[simp] theorem allUnmarked_nil : AllUnmarked [] := fun c hc => (by cases hc)

theorem allUnmarked_marked (t : List Char) : AllUnmarked (marked false t) := fun _ hc => (mem_marked hc).2

/-- What comes of a text behind an unmarked part. -/
theorem allUnmarked_mask_append {f : Piece Char} {marker : List Char} {s t : List (Char × Bool)} (hs : AllUnmarked s) :
    AllUnmarked (mask f marker false (s ++ t)) ↔
      AllUnmarked (mask f marker false (t.drop (leftover f.pattern 0 (s.map Prod.fst) (t.map Prod.fst)))) := by
  have hfront : AllUnmarked (scanned (fun t => f.pattern (t.map Prod.fst)) (marker.map (·, false)) 0 s t) := fun c hc =>
    (mem_scanned hc).elim (hs c) fun hc => (mem_marked hc).2
  rw [← leftover_map Prod.fst, mask, sub_append, allUnmarked_append, sub_drop]
  exact and_iff_right hfront

theorem AllUnmarked.mask {f : Piece Char} {marker : List Char} {t : List (Char × Bool)} (h : AllUnmarked t) :
    AllUnmarked (mask f marker false t) := fun c hc => (mem_mask hc).elim (h c) id

/-! ## What the patterns take -/

theorem jwt_separates {x : Char} (hx : ¬ InJwt x) : Separates jwt.pattern x := by
  refine separates_of_alphabet (fun h => ?_) hx
  obtain ⟨w, hpre, hw, hlen⟩ := jwt_isJwt h
  exact ⟨w, hpre, hlen, hw.inJwt⟩

theorem jwt_stops {t : List Char} {n : Nat} (h : jwt.pattern t = some n) :
    ∀ c ∈ (t.drop n).head?, isSegmentChar c = false := by
  obtain ⟨w, rest, rfl, hrest, rfl⟩ := (pattern_eq_some jwt_steady).1 h
  obtain ⟨-, -, -, -, -, -, -, hstop⟩ := jwt_eq_some.1 hrest
  rwa [List.drop_left]

/-- A JWT has an `y`. -/
theorem jwt_eq_none_of_not_mem {t : List Char} (h : 'y' ∉ t) : jwt t = none := by
  cases ht : jwt t with
  | none => rfl
  | some rest =>
    obtain ⟨h', y, z, rfl, -⟩ := jwt_eq_some.1 ht
    exact absurd (by simp) h

theorem jwt_eq_none_of_head {c : Char} {t : List Char} (h : c ≠ 'e') : jwt (c :: t) = none := by
  cases ht : jwt (c :: t) with
  | none => rfl
  | some rest =>
    obtain ⟨h', y, z, heq, -⟩ := jwt_eq_some.1 ht
    exact absurd (List.cons_eq_cons.1 heq).1 h

theorem Spells.mem_fold {ls w : List Char} (h : List.Forall₂ (fun l c => foldLetter c = l) ls w) :
    ∀ c ∈ w, foldLetter c ∈ ls := by
  intro c hc
  obtain ⟨n, hn, rfl⟩ := List.getElem_of_mem hc
  have hlen := h.length_eq
  have hget := List.Forall₂.get h (hlen ▸ hn) hn
  simp only [List.get_eq_getElem] at hget
  rw [hget]
  exact List.getElem_mem _

theorem Spells.not_mem {w : List Char} (h : Spells "bearer" w) : 'y' ∉ w := fun hy =>
  absurd (Spells.mem_fold h 'y' hy) (by decide)

theorem Spells.isSegmentChar {w : List Char} (h : Spells "bearer" w) : ∀ c ∈ w, isSegmentChar c = true := fun c hc =>
  isSegmentChar_of_fold (Spells.mem_fold h c hc) rfl

section

variable [UnicodeData]

theorem bearer_eq_none_of_head {c : Char} {t : List Char} (h : foldLetter c ≠ 'b') : bearer (c :: t) = none := by
  cases ht : bearer (c :: t) with
  | none => rfl
  | some rest =>
    obtain ⟨mid, hmid, -⟩ := andThen_eq_some.1 ht
    obtain ⟨w, heq, hw⟩ := anyCase_eq_some.1 hmid
    cases hw with
    | cons hc hw =>
      obtain ⟨rfl, -⟩ := List.cons_eq_cons.1 heq
      exact absurd hc h

variable [LawfulUnicode]

theorem bearer_separates {x : Char} (hx : ¬ InBearer x) : Separates bearer.pattern x := by
  refine separates_of_alphabet (fun h => ?_) hx
  obtain ⟨w, rest, rfl, hrest, rfl⟩ := (pattern_eq_some bearer_steady).1 h
  obtain ⟨keyword, sp, token, ht, hk, ⟨hsne, hs⟩, ⟨htne, htok⟩, -⟩ := bearer_eq_some.1 hrest
  refine ⟨w, List.prefix_append .., rfl, IsBearer.inBearer ⟨keyword, sp, token, ?_, hk, hsne, hs, htne, htok⟩⟩
  exact List.append_cancel_right (ht.trans (by simp))

theorem bearer_stops {t : List Char} {n : Nat} (h : bearer.pattern t = some n) :
    ∀ c ∈ (t.drop n).head?, isCredentialChar c = false := by
  obtain ⟨w, rest, rfl, hrest, rfl⟩ := (pattern_eq_some bearer_steady).1 h
  obtain ⟨-, -, -, -, -, -, -, hstop⟩ := bearer_eq_some.1 hrest
  rwa [List.drop_left]

/-- A credential that begins before a keyword and a space, and runs into the
keyword, ends with it: the keyword can only stand in its token. -/
theorem bearer_over {keyword : List Char} (hk : Spells "bearer" keyword) (u y : List Char) (n : Nat) (hy : y ≠ [])
    (hn : bearer.pattern (y ++ (keyword ++ ' ' :: u)) = some n) : n ≤ y.length ∨ n = y.length + keyword.length := by
  obtain ⟨w, rest, hw, hrest, rfl⟩ := (pattern_eq_some bearer_steady).1 hn
  obtain ⟨first, sp, token, ht, hfirst, ⟨-, hs⟩, ⟨-, htok⟩, hstop⟩ := bearer_eq_some.1 hrest
  have hlen : w.length = first.length + (sp.length + token.length) := by
    have := congrArg List.length (hw.symm.trans ht)
    simp only [List.length_append] at this
    omega
  obtain ⟨k, ks, rfl, hkb⟩ : ∃ k ks, keyword = k :: ks ∧ foldLetter k = 'b' := by
    cases hk with
    | cons hb hk => exact ⟨_, _, rfl, hb⟩
  have hcred : ∀ c ∈ k :: ks, isCredentialChar c = true := hk.isCredentialChar
  have hnospace : k ∉ sp := fun hmem => by
    have := not_isCredentialChar_of_isSpace (hs k hmem)
    rw [hcred k (List.mem_cons_self ..)] at this
    cases this
  -- the keyword stands in the token
  have htoken : ∀ pre, token ++ rest = pre ++ (k :: ks ++ ' ' :: u) →
      y.length = first.length + (sp.length + pre.length) →
      w.length ≤ y.length ∨ w.length = y.length + (k :: ks).length := fun pre hpre hylen => by
    rcases List.append_eq_append_iff.1 hpre with ⟨v, hv, -⟩ | ⟨v, hv, -⟩
    · have := congrArg List.length hv
      rw [List.length_append] at this
      exact .inl (by omega)
    · have hpreCred : ∀ c ∈ pre ++ (k :: ks), isCredentialChar c = true := fun c hc =>
        (List.mem_append.1 hc).elim (fun hc => htok c (hv ▸ List.mem_append_left _ hc)) (hcred c)
      have hend : token = pre ++ (k :: ks) := by
        rw [← (takeWhile_exact htok hstop).1, hpre, ← List.append_assoc]
        exact (takeWhile_exact hpreCred fun c hc => by cases hc; decide).1
      have := congrArg List.length hend
      rw [List.length_append] at this
      exact .inr (by omega)
  rcases List.append_eq_append_iff.1 (hw.trans (hw.symm.trans ht)) with ⟨v, hv, hrest'⟩ | ⟨v, hv, hrest'⟩
  · cases v with
    | nil =>
      cases sp with
      | nil => exact htoken [] (by simpa using hrest'.symm) (by simpa using congrArg List.length hv.symm)
      | cons d sp => exact absurd ((List.cons_eq_cons.1 hrest').1 ▸ List.mem_cons_self ..) hnospace
    | cons d v =>
      obtain ⟨rfl, -⟩ := List.cons_eq_cons.1 hrest'
      cases hfirst with
      | cons hb hfirst =>
        -- no letter of the word but the first is a `b`
        obtain ⟨c, y, rfl⟩ := List.exists_cons_of_ne_nil hy
        obtain ⟨rfl, rfl⟩ := List.cons_eq_cons.1 hv
        have := Spells.mem_fold hfirst k (by simp)
        rw [hkb] at this
        exact absurd this (by decide)
  · rcases List.append_eq_append_iff.1 hrest' with ⟨v', hv', hrest''⟩ | ⟨v', hv', hrest''⟩
    · exact htoken v' hrest'' (by rw [hv, hv']; simp)
    · cases v' with
      | nil => exact htoken [] (by simpa using hrest''.symm) (by rw [hv, hv']; simp)
      | cons d v' =>
        obtain ⟨rfl, -⟩ := List.cons_eq_cons.1 hrest''
        exact absurd (hv' ▸ List.mem_append_right _ (List.mem_cons_self ..)) hnospace

/-! ## One credential -/

/-- A character of a b64token, before its padding. -/
def isB64Char (c : Char) : Bool := c.isAlphanum || ['-', '.', '_', '~', '+', '/'].contains c

/-- A b64token. -/
def IsB64Token (token : List Char) : Prop :=
  ∃ body padding, token = body ++ padding ∧ body ≠ [] ∧ (∀ c ∈ body, isB64Char c = true) ∧ ∀ c ∈ padding, c = '='

/-- A bearer credential in a text: `Bearer`, in any case, a space and a token. -/
structure IsCredential (a keyword token b : List Char) : Prop where
  before : ∀ c ∈ a.getLast?, UnicodeData.isWord c = false
  keyword : Spells "bearer" keyword
  token : IsB64Token token
  after : ∀ c ∈ b.head?, isB64Char c = false ∧ c ≠ '='

/-- The text, the characters of the token marked. -/
def inContext (a keyword token b : List Char) : List (Char × Bool) :=
  marked false (a ++ keyword) ++ (' ', false) :: (marked true token ++ marked false b)

omit [LawfulUnicode] in
/-- The marks aside, the masked text is what `redact` makes of the string. -/
theorem map_redactMarked {μ : Type} (u : μ) (t : List (Char × μ)) :
    (redactMarked u t).map Prod.fst = (redactString (String.ofList (t.map Prod.fst))).toList := by
  rw [redactMarked, map_mask, map_mask, redactString, String.toList_ofList, String.toList_ofList]

/-- Nothing of the token is left in the masked text. -/
def MaskedWhole (a keyword token b : List Char) : Prop :=
  AllUnmarked (redactMarked false (inContext a keyword token b))

/-- Neither a JWT that begins before the keyword nor, with the JWTs masked, a
bearer credential that does so runs into it. -/
def KeywordSeen (a keyword : List Char) : Prop :=
  leftover jwt.pattern 0 a keyword = 0 ∧ leftover bearer.pattern 0 (sub jwt.pattern jwtMarker 0 a) keyword = 0

omit [UnicodeData] [LawfulUnicode] in
theorem IsB64Token.char {token : List Char} (h : IsB64Token token) : ∀ c ∈ token, isB64Char c = true ∨ c = '=' := by
  obtain ⟨body, padding, rfl, -, hbody, hpadding⟩ := h
  exact fun c hc => (List.mem_append.1 hc).imp (hbody c) (hpadding c)

/-- A character of a token is no space, and is masked with a bearer credential
exactly when it may stand in a JWT. -/
theorem tokenChar_cases {c : Char} (h : isB64Char c = true ∨ c = '=') :
    UnicodeData.isSpace c = false ∧ (isCredentialChar c = true ↔ InJwt c) := by
  have hother : c.isAlphanum = true ∨ c ∈ ['-', '.', '_', '~', '+', '/', '='] := by
    simp only [isB64Char, Bool.or_eq_true, List.contains_eq_mem, decide_eq_true_eq] at h
    rcases h with (h | h) | rfl
    · exact .inl h
    · simp only [List.mem_cons, List.not_mem_nil, or_false] at h ⊢
      tauto
    · exact .inr (by simp)
  rcases hother with halpha | hmem
  · obtain ⟨hlow, hhigh⟩ := Ascii.isAlphanum_range halpha
    have hsegment : isSegmentChar c = true := by simp [isSegmentChar, halpha]
    exact ⟨LawfulUnicode.isSpace_ascii c hlow hhigh,
      iff_of_true (isCredentialChar_of_isSegmentChar hsegment) (.inl hsegment)⟩
  · simp only [List.mem_cons, List.not_mem_nil, or_false] at hmem
    rcases hmem with rfl | rfl | rfl | rfl | rfl | rfl | rfl
    all_goals exact ⟨LawfulUnicode.isSpace_ascii _ (by decide) (by decide), by unfold InJwt; decide⟩

omit [UnicodeData] [LawfulUnicode] in
theorem mask_jwt_after {token b : List Char} (hb : ∀ c ∈ b.head?, ¬ InJwt c) :
    mask jwt jwtMarker false (marked true token ++ marked false b) =
      mask jwt jwtMarker false (marked true token) ++ mask jwt jwtMarker false (marked false b) := by
  cases b with
  | nil => simp
  | cons x b =>
    have hx : Separates jwt.pattern x := jwt_separates (hb x rfl)
    rw [marked_cons, mask_separated jwt_steady hx]
    exact congrArg _ (mask_separated (a := []) jwt_steady hx false (marked false b)).symm

omit [UnicodeData] [LawfulUnicode] in
/-- A JWT that runs into the keyword takes it whole, and leaves its marker. -/
theorem mask_jwt_swallows {a keyword : List Char} (hk : Spells "bearer" keyword)
    (h : leftover jwt.pattern 0 a keyword ≠ 0) :
    ∃ pre, mask jwt jwtMarker false (marked false (a ++ keyword)) = pre ++ marked false jwtMarker := by
  have hl : leftover jwt.pattern 0 a keyword = keyword.length :=
    (leftover_cases (runs_to_end jwt_steady.pattern jwt_stops hk.isSegmentChar) (Nat.zero_le _)).resolve_left h
  have hmarked : leftover (fun t : List (Char × Bool) => jwt.pattern (t.map Prod.fst)) 0 (marked false a)
      (marked false keyword) = keyword.length := by
    rw [leftover_map]
    simpa using hl
  have hover : leftover (fun t : List (Char × Bool) => jwt.pattern (t.map Prod.fst)) 0 (marked false a)
      (marked false keyword) ≠ 0 := by
    rw [hmarked]
    exact hl ▸ h
  obtain ⟨pre, hpre⟩ := scanned_ends (r := jwtMarker.map (·, false)) hover (Nat.zero_le _)
  refine ⟨pre, ?_⟩
  rw [marked_append, mask, sub_append, hpre, hmarked, sub_drop, List.drop_eq_nil_of_le (by simp [marked]), sub_nil,
    List.append_nil]
  rfl

/-- Behind the marker of a JWT the masking of credentials starts anew. -/
theorem mask_bearer_after_jwt (pre t : List (Char × Bool)) :
    mask bearer bearerMarker false (pre ++ marked false jwtMarker ++ t) =
      mask bearer bearerMarker false (pre ++ marked false "[REDACTED:jwt".toList) ++
        (']', false) :: mask bearer bearerMarker false t := by
  have hbracket : ¬ InBearer ']' := by
    rintro (h | h)
    · rw [LawfulUnicode.isSpace_ascii ']' (by decide) (by decide)] at h
      cases h
    · exact absurd h (by decide)
  have hmarker : marked false jwtMarker = marked false "[REDACTED:jwt".toList ++ [(']', false)] := by
    rw [← marked_nil, ← marked_cons, ← marked_append]
    exact congrArg _ (by decide)
  rw [hmarker, ← List.append_assoc, List.append_assoc, List.singleton_append]
  exact mask_separated bearer_steady (bearer_separates hbracket) false _ t

/-- The token and what follows it, with the JWTs masked. -/
def tokenAndAfter (token b : List Char) : List (Char × Bool) :=
  mask jwt jwtMarker false (marked true token) ++ mask jwt jwtMarker false (marked false b)

omit [LawfulUnicode] in
theorem IsCredential.after_not_inJwt {a keyword token b : List Char} (h : IsCredential a keyword token b) :
    ∀ c ∈ b.head?, ¬ InJwt c := by
  intro c hc hin
  have hb64 := (h.after c hc).1
  rcases hin with hin | rfl
  · simp only [isSegmentChar, Bool.or_eq_true, beq_iff_eq] at hin
    rcases hin with (hin | rfl) | rfl
    · simp [isB64Char, hin] at hb64
    all_goals exact absurd hb64 (by decide)
  · exact absurd hb64 (by decide)

omit [LawfulUnicode] in
theorem allUnmarked_mask_space (t : List (Char × Bool)) :
    AllUnmarked (mask bearer bearerMarker false ((' ', false) :: t)) ↔
      AllUnmarked (mask bearer bearerMarker false t) := by
  rw [mask_cons_of_none (bearer_eq_none_of_head (by decide)), allUnmarked_cons]
  exact and_iff_right rfl

omit [LawfulUnicode] in
/-- The text once its JWTs are masked. -/
theorem redactMarked_inContext {a keyword token b : List Char} (h : IsCredential a keyword token b) :
    redactMarked false (inContext a keyword token b) = mask bearer bearerMarker false
      (mask jwt jwtMarker false (marked false (a ++ keyword)) ++ (' ', false) :: tokenAndAfter token b) := by
  have hspace : Separates jwt.pattern ' ' := jwt_separates (by rintro (h | h) <;> exact absurd h (by decide))
  rw [redactMarked, inContext, mask_separated jwt_steady hspace, mask_jwt_after h.after_not_inJwt]
  rfl

/-- No JWT runs into the keyword: a credential before it does, to its end, or
none does. -/
theorem maskedWhole_of_jwt {a keyword token b : List Char} (h : IsCredential a keyword token b)
    (hjwt : leftover jwt.pattern 0 a keyword = 0) :
    ∃ k, leftover bearer.pattern 0 (sub jwt.pattern jwtMarker 0 a) keyword = k ∧ (k = 0 ∨ k = keyword.length) ∧
      (MaskedWhole a keyword token b ↔ AllUnmarked (mask bearer bearerMarker false
        ((marked false keyword ++ (' ', false) :: tokenAndAfter token b).drop k))) := by
  have hcases := leftover_cases (m := bearer.pattern) (a := sub jwt.pattern jwtMarker 0 a)
    (bearer_over h.keyword ((tokenAndAfter token b).map Prod.fst)) (Nat.zero_le _)
  have hle : leftover bearer.pattern 0 (sub jwt.pattern jwtMarker 0 a)
      (keyword ++ ' ' :: (tokenAndAfter token b).map Prod.fst) ≤ keyword.length := by
    rcases hcases with h0 | h0 <;> omega
  have hcut := (scan_cut (r := []) bearer_steady.pattern hle).1
  have hparts : mask jwt jwtMarker false (marked false (a ++ keyword)) =
      mask jwt jwtMarker false (marked false a) ++ marked false keyword := by
    rw [marked_append, mask_append jwt_steady (by simpa using hjwt)]
    congr 1
    exact mask_eq_self fun s hs => jwt_eq_none_of_not_mem fun hy =>
      h.keyword.not_mem (by simpa using (hs.map Prod.fst).subset hy)
  have hfront : AllUnmarked (mask jwt jwtMarker false (marked false a)) := (allUnmarked_marked a).mask
  refine ⟨_, rfl, hcut ▸ hcases, ?_⟩
  rw [MaskedWhole, redactMarked_inContext h, hparts, List.append_assoc, allUnmarked_mask_append hfront, hcut]
  simp

/-- A keyword that a match runs into leaves the token to itself. -/
theorem maskedWhole_unseen {a keyword token b : List Char} (h : IsCredential a keyword token b)
    (hseen : ¬ KeywordSeen a keyword) :
    MaskedWhole a keyword token b ↔ AllUnmarked (mask bearer bearerMarker false (tokenAndAfter token b)) := by
  by_cases hjwt : leftover jwt.pattern 0 a keyword = 0
  · obtain ⟨k, hk, hcases, hiff⟩ := maskedWhole_of_jwt h hjwt
    obtain rfl : k = keyword.length := hcases.resolve_left fun h0 => hseen ⟨hjwt, hk.trans h0⟩
    rw [hiff, List.drop_left' (by simp [marked]), allUnmarked_mask_space]
  · obtain ⟨pre, hpre⟩ := mask_jwt_swallows h.keyword hjwt
    have hpreUnmarked : AllUnmarked (pre ++ marked false jwtMarker) := hpre ▸ (allUnmarked_marked _).mask
    have hfront : AllUnmarked (pre ++ marked false "[REDACTED:jwt".toList) :=
      allUnmarked_append.2 ⟨(allUnmarked_append.1 hpreUnmarked).1, allUnmarked_marked _⟩
    rw [MaskedWhole, redactMarked_inContext h, hpre, mask_bearer_after_jwt, allUnmarked_append, allUnmarked_cons,
      allUnmarked_mask_space]
    exact ⟨fun hall => hall.2.2, fun hall => ⟨hfront.mask, rfl, hall⟩⟩

/-- A keyword that is seen. -/
theorem maskedWhole_seen {a keyword token b : List Char} (h : IsCredential a keyword token b)
    (hseen : KeywordSeen a keyword) : MaskedWhole a keyword token b ↔ AllUnmarked (mask bearer bearerMarker false
      (marked false keyword ++ (' ', false) :: tokenAndAfter token b)) := by
  obtain ⟨k, hk, -, hiff⟩ := maskedWhole_of_jwt h hseen.1
  obtain rfl : k = 0 := hk.symm.trans hseen.2
  exact hiff

/-! ## The token -/

/-- The first JWT of a token, where there is one, ends it. -/
def endsAtJwt : List Char → Bool
  | [] => true
  | c :: t =>
    match jwt (c :: t) with
    | some rest => rest.isEmpty
    | none => endsAtJwt t

omit [UnicodeData] [LawfulUnicode] in
/-- A token without a JWT, and one cut at its first. -/
theorem token_cases : ∀ token : List Char,
    (mask jwt jwtMarker false (marked true token) = marked true token ∧ jwt token = none ∧ endsAtJwt token = true) ∨
    ∃ p w rest, token = p ++ (w ++ rest) ∧ jwt (w ++ rest) = some rest ∧ endsAtJwt token = rest.isEmpty ∧
      (p ≠ [] → jwt token = none) ∧ mask jwt jwtMarker false (marked true token) =
        marked true p ++ (marked false jwtMarker ++ mask jwt jwtMarker false (marked true rest))
  | [] => .inl ⟨rfl, jwt_steady.nil, rfl⟩
  | c :: t => by
    rw [endsAtJwt]
    cases hj : jwt (c :: t) with
    | some rest =>
      obtain ⟨d, w, hw⟩ := jwt_steady.suffix hj
      refine .inr ⟨[], d :: w, rest, hw, hw ▸ hj, rfl, fun h => absurd rfl h, ?_⟩
      have hfound : jwt ((marked true (d :: w) ++ marked true rest).map Prod.fst) =
          some ((marked true rest).map Prod.fst) := by
        rw [← marked_append, map_marked, map_marked]
        exact hw ▸ hj
      rw [hw, marked_append, mask_match (by simp) hfound]
      rfl
    | none =>
      have hkeep : mask jwt jwtMarker false (marked true (c :: t)) =
          (c, true) :: mask jwt jwtMarker false (marked true t) :=
        mask_cons_of_none ((congrArg jwt (map_marked true (c :: t))).trans hj)
      rw [hkeep]
      rcases token_cases t with ⟨hmask, -, hend⟩ | ⟨p, w, rest, rfl, hw, hend, -, hmask⟩
      · exact .inl ⟨by rw [hmask]; rfl, rfl, hend⟩
      · exact .inr ⟨c :: p, w, rest, rfl, hw, hend, fun _ => rfl, by rw [hmask]; rfl⟩

/-- After the token comes a space, or several, and then what the mask takes for
the token of a credential. -/
def FollowedByCredential (b : List Char) : Prop :=
  ∃ sp rest, b = sp ++ rest ∧ sp ≠ [] ∧ (∀ c ∈ sp, UnicodeData.isSpace c = true) ∧
    (∃ c ∈ rest.head?, isCredentialChar c = true) ∧ jwt rest = none

/-- When a token is masked whole: behind a keyword that is seen, up to its end
or to the JWT that ends it; else only as a JWT, or as a keyword itself. -/
def MasksToken (a keyword token b : List Char) : Prop :=
  (KeywordSeen a keyword → (∀ c ∈ token, InJwt c) ∧ endsAtJwt token = true) ∧
  (¬ KeywordSeen a keyword → jwt token = some [] ∨ Spells "bearer" token ∧ FollowedByCredential b)

/-- What neither pattern takes is not masked. -/
theorem not_maskedWhole_of_not_inJwt {a keyword token b : List Char} (h : IsCredential a keyword token b) {c : Char}
    (hc : c ∈ token) (hin : ¬ InJwt c) : ¬ MaskedWhole a keyword token b := by
  obtain ⟨hspace, hiff⟩ := tokenChar_cases (h.token.char c hc)
  have hbearer : ¬ InBearer c := by
    rintro (h | h)
    · rw [hspace] at h
      cases h
    · exact hin (hiff.1 h)
  obtain ⟨s, t, rfl⟩ := List.append_of_mem hc
  have hsplit : inContext a keyword (s ++ c :: t) b =
      (marked false (a ++ keyword) ++ (' ', false) :: marked true s) ++
        (c, true) :: (marked true t ++ marked false b) := by
    simp [inContext]
  rw [MaskedWhole, redactMarked, hsplit, mask_separated jwt_steady (jwt_separates hin),
    mask_separated bearer_steady (bearer_separates hbearer), allUnmarked_append, allUnmarked_cons]
  exact fun hall => Bool.noConfusion hall.2.1

theorem bearer_eq_none_of_no_space {t : List Char} (h : ∀ c ∈ t, UnicodeData.isSpace c = false) : bearer t = none := by
  cases ht : bearer t with
  | none => rfl
  | some rest =>
    obtain ⟨keyword, sp, token, rfl, -, ⟨hne, hs⟩, -⟩ := bearer_eq_some.1 ht
    obtain ⟨c, sp, rfl⟩ := List.exists_cons_of_ne_nil hne
    have hc := h c (by simp)
    rw [hs c (List.mem_cons_self ..)] at hc
    cases hc

/-- A credential goes whole, with what else the mask takes for its token. -/
theorem allUnmarked_credential {keyword sp token t : List (Char × Bool)} (hk : Spells "bearer" (keyword.map Prod.fst))
    (hsne : sp ≠ []) (hs : ∀ c ∈ sp, UnicodeData.isSpace c.1 = true) (htne : token ≠ [])
    (htok : ∀ c ∈ token, isCredentialChar c.1 = true) (ht : AllUnmarked t) :
    AllUnmarked (mask bearer bearerMarker false (keyword ++ (sp ++ (token ++ t)))) := by
  let p : Char × Bool → Bool := fun c => isCredentialChar c.1
  have hsplit : keyword ++ (sp ++ (token ++ t)) = (keyword ++ (sp ++ (token ++ t.takeWhile p))) ++ t.dropWhile p := by
    simp only [List.append_assoc, List.takeWhile_append_dropWhile]
  have hfound : bearer ((keyword ++ (sp ++ (token ++ t.takeWhile p)) ++ t.dropWhile p).map Prod.fst) =
      some ((t.dropWhile p).map Prod.fst) := by
    refine bearer_eq_some.2 ⟨keyword.map Prod.fst, sp.map Prod.fst, (token ++ t.takeWhile p).map Prod.fst,
      by simp only [List.map_append, List.append_assoc], hk,
      ⟨by simpa using hsne, ?_⟩, ⟨by simp [htne], ?_⟩, ?_⟩
    · intro c hc
      obtain ⟨d, hd, rfl⟩ := List.mem_map.1 hc
      exact hs d hd
    · intro c hc
      obtain ⟨d, hd, rfl⟩ := List.mem_map.1 hc
      exact (List.mem_append.1 hd).elim (htok d) fun hd => List.mem_takeWhile_imp (p := p) hd
    · intro c hc
      rw [List.head?_map] at hc
      obtain ⟨d, hd, rfl⟩ := Option.map_eq_some_iff.1 hc
      exact head?_dropWhile p t d hd
  have hne : keyword ++ (sp ++ (token ++ t.takeWhile p)) ≠ [] := by simp [hsne]
  rw [hsplit, mask_match hne hfound, allUnmarked_append]
  have hrest : AllUnmarked (t.dropWhile p) := fun c hc => ht c ((List.dropWhile_sublist p).subset hc)
  exact ⟨allUnmarked_marked _, hrest.mask⟩

omit [LawfulUnicode] in
/-- What is left of a token after its first JWT shows. -/
theorem allUnmarked_after_jwt {w rest : List Char} (hw : jwt (w ++ rest) = some rest) {t : List (Char × Bool)}
    (ht : AllUnmarked t) :
    AllUnmarked (mask bearer bearerMarker false (mask jwt jwtMarker false (marked true rest) ++ t)) ↔ rest = [] := by
  cases rest with
  | nil => exact iff_of_true (by simpa using ht.mask) rfl
  | cons d rest =>
    obtain ⟨-, -, -, -, -, -, -, hstop⟩ := jwt_eq_some.1 hw
    have hd : isSegmentChar d = false := hstop d rfl
    have hjwt : jwt (d :: rest) = none := jwt_eq_none_of_head (by rintro rfl; exact absurd hd (by decide))
    have hbearer : foldLetter d ≠ 'b' := fun hb => by
      rw [isSegmentChar_of_fold (by decide) hb] at hd
      cases hd
    have hkeep : mask jwt jwtMarker false (marked true (d :: rest)) =
        (d, true) :: mask jwt jwtMarker false (marked true rest) :=
      mask_cons_of_none ((congrArg jwt (map_marked true (d :: rest))).trans hjwt)
    rw [hkeep, List.cons_append, mask_cons_of_none (bearer_eq_none_of_head hbearer), allUnmarked_cons]
    simp

theorem isSpace_ne_of_credential {c : Char} (h : UnicodeData.isSpace c = true) :
    ∀ d, isCredentialChar d = true → c ≠ d := by
  rintro d hd rfl
  rw [not_isCredentialChar_of_isSpace h] at hd
  cases hd

theorem isSpace_ne_bracket {c : Char} (h : UnicodeData.isSpace c = true) : c ≠ '[' := by
  rintro rfl
  exact not_inBearer_bracket (.inl h)

/-- Spaces in front of a text are in front of it once its JWTs are masked. -/
theorem sub_jwt_spaces : ∀ {sp b rest : List Char}, (∀ c ∈ sp, UnicodeData.isSpace c = true) →
    (sub jwt.pattern jwtMarker 0 b = sp ++ rest ↔ ∃ after, b = sp ++ after ∧ sub jwt.pattern jwtMarker 0 after = rest)
  | [], b, rest, _ => by simp
  | c :: sp, [], rest, _ => by simp
  | c :: sp, d :: b, rest, hs => by
    have hc := hs c (List.mem_cons_self ..)
    have hsp : ∀ c ∈ sp, UnicodeData.isSpace c = true := fun x hx => hs x (List.mem_cons_of_mem _ hx)
    cases hn : jwt.pattern (d :: b) with
    | some n =>
      rw [sub_match hn]
      refine iff_of_false (fun h => ?_) ?_
      · exact isSpace_ne_bracket hc (List.cons_eq_cons.1 h).1.symm
      · rintro ⟨after, h, -⟩
        obtain ⟨rfl, -⟩ := List.cons_eq_cons.1 h
        obtain ⟨w, hpre, hw, -⟩ := jwt_isJwt hn
        obtain ⟨v, rfl⟩ := hw.begins
        exact isSpace_ne_of_credential hc 'e' (by decide) (List.cons_prefix_cons.1 hpre).1.symm
    | none =>
      rw [sub_none hn]
      constructor
      · intro h
        obtain ⟨rfl, htail⟩ := List.cons_eq_cons.1 h
        obtain ⟨after, rfl, hafter⟩ := (sub_jwt_spaces hsp).1 htail
        exact ⟨after, rfl, hafter⟩
      · rintro ⟨after, h, hafter⟩
        obtain ⟨rfl, rfl⟩ := List.cons_eq_cons.1 h
        exact congrArg (d :: ·) ((sub_jwt_spaces hsp).2 ⟨after, rfl, hafter⟩)

theorem mask_jwt_spaces {b : List Char} : ∀ {sp : List Char}, (∀ c ∈ sp, UnicodeData.isSpace c = true) →
    mask jwt jwtMarker false (marked false (sp ++ b)) = marked false sp ++ mask jwt jwtMarker false (marked false b)
  | [], _ => rfl
  | c :: sp, hs => by
    have hnone : jwt (c :: (sp ++ b)) = none :=
      jwt_eq_none_of_head (isSpace_ne_of_credential (hs c (List.mem_cons_self ..)) 'e' (by decide))
    have hkeep : mask jwt jwtMarker false (marked false (c :: (sp ++ b))) =
        (c, false) :: mask jwt jwtMarker false (marked false (sp ++ b)) :=
      mask_cons_of_none ((congrArg jwt (map_marked false (c :: (sp ++ b)))).trans hnone)
    rw [List.cons_append, hkeep, mask_jwt_spaces fun x hx => hs x (List.mem_cons_of_mem _ hx)]
    rfl

omit [UnicodeData] [LawfulUnicode] in
/-- What the mask takes for a token, at the head of a text, was there before. -/
theorem sub_jwt_credential {b : List Char} :
    (∃ c ∈ (sub jwt.pattern jwtMarker 0 b).head?, isCredentialChar c = true) ↔
      (∃ c ∈ b.head?, isCredentialChar c = true) ∧ jwt b = none := by
  cases b with
  | nil => simp
  | cons d b =>
    cases hn : jwt (d :: b) with
    | some rest =>
      obtain ⟨x, w, hw⟩ := jwt_steady.suffix hn
      rw [hw] at hn ⊢
      have hhead : (sub jwt.pattern jwtMarker 0 (x :: w ++ rest)).head? = some '[' := by
        rw [sub_piece (by simp) hn]
        rfl
      rw [hhead]
      refine iff_of_false ?_ (by simp)
      rintro ⟨c, ⟨⟩, hc⟩
      exact absurd hc (by decide)
    | none =>
      rw [sub_none (pattern_eq_none.2 hn)]
      simp

/-- A token that no keyword reaches, and that holds no JWT, is masked where it
is a keyword itself. -/
theorem allUnmarked_plain_unseen {a keyword token b : List Char} (h : IsCredential a keyword token b) :
    AllUnmarked (mask bearer bearerMarker false
      (marked true token ++ mask jwt jwtMarker false (marked false b))) ↔
    Spells "bearer" token ∧ FollowedByCredential b := by
  have hchars : (marked true token ++ mask jwt jwtMarker false (marked false b)).map Prod.fst =
      token ++ sub jwt.pattern jwtMarker 0 b := by simp
  constructor
  · intro hall
    obtain ⟨c, t, rfl⟩ : ∃ c t, token = c :: t := by
      obtain ⟨body, padding, rfl, hne, -⟩ := h.token
      obtain ⟨c, body, rfl⟩ := List.exists_cons_of_ne_nil hne
      exact ⟨c, _, rfl⟩
    cases hn : bearer (c :: t ++ sub jwt.pattern jwtMarker 0 b) with
    | none =>
      -- the first character of the token is kept
      rw [← hchars] at hn
      have hkeep : mask bearer bearerMarker false
          ((c, true) :: (marked true t ++ mask jwt jwtMarker false (marked false b))) =
          (c, true) :: mask bearer bearerMarker false (marked true t ++ mask jwt jwtMarker false (marked false b)) :=
        mask_cons_of_none hn
      rw [marked_cons, List.cons_append, hkeep, allUnmarked_cons] at hall
      exact absurd hall.1 (by simp)
    | some rest =>
      obtain ⟨keyword', sp, token', heq, hk, ⟨hsne, hs⟩, ⟨htne, htok⟩, -⟩ := bearer_eq_some.1 hn
      have hends : keyword' = c :: t ∧ sub jwt.pattern jwtMarker 0 b = sp ++ (token' ++ rest) := by
        rcases List.append_eq_append_iff.1 heq with ⟨v, hv, hrest⟩ | ⟨v, hv, hrest⟩
        · cases v with
          | nil => exact ⟨by simpa using hv, by simpa using hrest⟩
          | cons d v =>
            -- the keyword would go on after the token
            have hd : isSegmentChar d = true := hk.isSegmentChar d (hv ▸ by simp)
            have hhead : ∃ c ∈ (sub jwt.pattern jwtMarker 0 b).head?, isCredentialChar c = true :=
              ⟨d, by rw [hrest]; rfl, isCredentialChar_of_isSegmentChar hd⟩
            obtain ⟨-, hnone⟩ := sub_jwt_credential.1 hhead
            cases b with
            | nil => simp at hrest
            | cons x b =>
              rw [sub_none (pattern_eq_none.2 hnone)] at hrest
              obtain ⟨rfl, -⟩ := List.cons_eq_cons.1 hrest
              exact absurd (.inl hd) (h.after_not_inJwt x rfl)
        · cases v with
          | nil => exact ⟨by simpa using hv.symm, by simpa using hrest.symm⟩
          | cons d v =>
            -- a token has no space
            obtain ⟨x, sp, rfl⟩ := List.exists_cons_of_ne_nil hsne
            obtain ⟨rfl, -⟩ := List.cons_eq_cons.1 hrest
            have hspace := (tokenChar_cases (h.token.char x (hv ▸ by simp))).1
            rw [hs x (List.mem_cons_self ..)] at hspace
            cases hspace
      obtain ⟨after, rfl, hafter⟩ := (sub_jwt_spaces hs).1 hends.2
      obtain ⟨d, token', rfl⟩ := List.exists_cons_of_ne_nil htne
      have hhead : ∃ c ∈ (sub jwt.pattern jwtMarker 0 after).head?, isCredentialChar c = true :=
        ⟨d, by rw [hafter]; rfl, htok d (List.mem_cons_self ..)⟩
      obtain ⟨hcred, hnone⟩ := sub_jwt_credential.1 hhead
      exact ⟨hends.1 ▸ hk, sp, after, rfl, hsne, hs, hcred, hnone⟩
  · rintro ⟨hk, sp, rest, rfl, hsne, hs, ⟨d, hd, hcred⟩, hnone⟩
    obtain ⟨rest, rfl⟩ : ∃ t, rest = d :: t := by
      cases rest with
      | nil => cases hd
      | cons x t => cases hd; exact ⟨t, rfl⟩
    have hspaces : mask jwt jwtMarker false (marked false (sp ++ d :: rest)) =
        marked false sp ++ ([(d, false)] ++ mask jwt jwtMarker false (marked false rest)) := by
      rw [mask_jwt_spaces hs]
      exact congrArg (marked false sp ++ ·)
        (mask_cons_of_none ((congrArg jwt (map_marked false (d :: rest))).trans hnone))
    rw [hspaces]
    refine allUnmarked_credential (by simpa using hk) (by simpa [marked] using hsne)
      (fun c hc => hs _ (mem_marked hc).1) (by simp) (by simpa using hcred) (allUnmarked_marked rest).mask

/-- A token before its first JWT goes with a keyword that is seen; the JWT is
masked; and what comes after it shows. -/
theorem allUnmarked_jwt_seen {keyword p : List Char} (hk : Spells "bearer" keyword)
    (hp : ∀ c ∈ p, isCredentialChar c = true) (t : List (Char × Bool)) :
    AllUnmarked (mask bearer bearerMarker false
      (marked false keyword ++ (' ', false) :: (marked true p ++ (marked false jwtMarker ++ t)))) ↔
    AllUnmarked (mask bearer bearerMarker false t) := by
  have hsplit : marked false keyword ++ (' ', false) :: (marked true p ++ (marked false jwtMarker ++ t)) =
      (marked false keyword ++ (' ', false) :: marked true p) ++ marked false jwtMarker ++ t := by simp
  have hfront : AllUnmarked (mask bearer bearerMarker false
      ((marked false keyword ++ (' ', false) :: marked true p) ++ marked false "[REDACTED:jwt".toList)) := by
    cases p with
    | nil =>
      refine AllUnmarked.mask ?_
      rw [marked_nil, allUnmarked_append, allUnmarked_append, allUnmarked_cons]
      exact ⟨⟨allUnmarked_marked _, rfl, allUnmarked_nil⟩, allUnmarked_marked _⟩
    | cons c p =>
      rw [List.append_assoc]
      have htoken : marked true (c :: p) ≠ [] := by simp
      exact allUnmarked_credential (by simpa using hk) (List.cons_ne_nil (' ', false) [])
        (by simpa using LawfulUnicode.isSpace_blank) htoken (fun d hd => hp _ (mem_marked hd).1) (allUnmarked_marked _)
  rw [hsplit, mask_bearer_after_jwt, allUnmarked_append, allUnmarked_cons]
  exact ⟨fun h => h.2.2, fun h => ⟨hfront, rfl, h⟩⟩

/-- Without a keyword, what comes before the JWT shows. -/
theorem allUnmarked_jwt_unseen {p : List Char} (hp : ∀ c ∈ p, UnicodeData.isSpace c = false) (t : List (Char × Bool)) :
    AllUnmarked (mask bearer bearerMarker false (marked true p ++ (marked false jwtMarker ++ t))) ↔
    p = [] ∧ AllUnmarked (mask bearer bearerMarker false t) := by
  rw [← List.append_assoc, mask_bearer_after_jwt, allUnmarked_append, allUnmarked_cons]
  refine and_congr ?_ (and_iff_right rfl)
  cases p with
  | nil => exact iff_of_true (allUnmarked_marked _).mask rfl
  | cons c p =>
    have hmarker : ("[REDACTED:jwt".toList.all fun c => decide (32 < c.toNat) && decide (c.toNat < 127)) = true := by
      decide
    have hnone : bearer ((marked true (c :: p) ++ marked false "[REDACTED:jwt".toList).map Prod.fst) = none := by
      refine bearer_eq_none_of_no_space fun d hd => ?_
      rw [List.map_append, map_marked, map_marked] at hd
      rcases List.mem_append.1 hd with hd | hd
      · exact hp d hd
      · have hrange := List.all_eq_true.1 hmarker d hd
        simp only [Bool.and_eq_true, decide_eq_true_eq] at hrange
        exact LawfulUnicode.isSpace_ascii d hrange.1 hrange.2
    refine iff_of_false ?_ (by simp)
    rw [marked_cons, List.cons_append] at hnone ⊢
    rw [mask_cons_of_none hnone, allUnmarked_cons]
    exact fun h => Bool.noConfusion h.1

/-- A bearer credential is masked whole exactly when its token is one the mask
takes to its end. -/
theorem maskedWhole_iff {a keyword token b : List Char} (h : IsCredential a keyword token b) :
    MaskedWhole a keyword token b ↔ MasksToken a keyword token b := by
  have hafter : AllUnmarked (mask jwt jwtMarker false (marked false b)) := (allUnmarked_marked b).mask
  by_cases hall : ∀ c ∈ token, InJwt c
  · have hcred : ∀ c ∈ token, isCredentialChar c = true := fun c hc =>
      (tokenChar_cases (h.token.char c hc)).2.2 (hall c hc)
    have hnospace : ∀ c ∈ token, UnicodeData.isSpace c = false := fun c hc =>
      (tokenChar_cases (h.token.char c hc)).1
    rcases token_cases token with ⟨hmask, hnone, hend⟩ | ⟨p, w, rest, htoken, hw, hend, hp, hmask⟩
    · by_cases hseen : KeywordSeen a keyword
      · have htne : token ≠ [] := by
          obtain ⟨body, padding, rfl, hne, -⟩ := h.token
          simp [hne]
        refine iff_of_true ((maskedWhole_seen h hseen).2 ?_) ⟨fun _ => ⟨hall, hend⟩, fun hnot => absurd hseen hnot⟩
        rw [tokenAndAfter, hmask]
        exact allUnmarked_credential (by simpa using h.keyword) (List.cons_ne_nil (' ', false) [])
          (by simpa using LawfulUnicode.isSpace_blank) (by simpa [marked] using htne)
          (fun d hd => hcred _ (mem_marked hd).1) hafter
      · rw [maskedWhole_unseen h hseen, tokenAndAfter, hmask, allUnmarked_plain_unseen h]
        simp [MasksToken, hseen, hnone]
    · have hsplit : tokenAndAfter token b = marked true p ++ (marked false jwtMarker ++
          (mask jwt jwtMarker false (marked true rest) ++ mask jwt jwtMarker false (marked false b))) := by
        simp only [tokenAndAfter, hmask, List.append_assoc]
      have hpmem : ∀ c ∈ p, c ∈ token := fun c hc => htoken ▸ List.mem_append_left _ hc
      by_cases hseen : KeywordSeen a keyword
      · rw [maskedWhole_seen h hseen, hsplit, allUnmarked_jwt_seen h.keyword fun c hc => hcred c (hpmem c hc),
          allUnmarked_after_jwt hw hafter]
        simpa [MasksToken, hseen, hend] using fun _ => hall
      · have hspelled : ¬ Spells "bearer" token := fun hk => by
          have hnoy : 'y' ∉ w ++ rest := fun hy => hk.not_mem (htoken ▸ List.mem_append_right _ hy)
          rw [jwt_eq_none_of_not_mem hnoy] at hw
          cases hw
        have hwhole : jwt token = some [] ↔ p = [] ∧ rest = [] := by
          by_cases hpne : p = []
          · subst hpne
            rw [htoken, List.nil_append, hw]
            simp
          · simp [hp hpne, hpne]
        rw [maskedWhole_unseen h hseen, hsplit, allUnmarked_jwt_unseen fun c hc => hnospace c (hpmem c hc),
          allUnmarked_after_jwt hw hafter]
        simp [MasksToken, hseen, hspelled, hwhole]
  · have hnot := hall
    push Not at hnot
    obtain ⟨c, hc, hin⟩ := hnot
    refine iff_of_false (not_maskedWhole_of_not_inJwt h hc hin) fun ⟨hseen, hunseen⟩ => ?_
    by_cases hk : KeywordSeen a keyword
    · exact hall (hseen hk).1
    · rcases hunseen hk with hj | ⟨hspell, -⟩
      · obtain ⟨w, hpre, hw, hlen⟩ := jwt_isJwt ((pattern_eq_some jwt_steady).2 ⟨token, [], by simp, hj, rfl⟩)
        obtain rfl := List.IsPrefix.eq_of_length hpre hlen
        exact hin (hw.inJwt c hc)
      · exact hin (.inl (hspell.isSegmentChar c hc))

end

/-- A token in the mask's alphabet, at the end of a sentence. -/
theorem maskedWhole_iff_plain : let _ := asciiData
    IsCredential "sent ".toList "BEARER".toList "abc.def".toList ")".toList ∧
    (MaskedWhole "sent ".toList "BEARER".toList "abc.def".toList ")".toList ↔
      MasksToken "sent ".toList "BEARER".toList "abc.def".toList ")".toList) := by
  intro _
  have : LawfulUnicode := asciiData_lawful
  have h : IsCredential "sent ".toList "BEARER".toList "abc.def".toList ")".toList := by
    refine ⟨fun c hc => ?_, by unfold Spells; decide, ⟨"abc.def".toList, [], by simp, by decide, ?_, by simp⟩,
      fun c hc => ?_⟩
    · obtain rfl := Option.some.inj hc
      decide
    · exact List.all_eq_true.1 (by decide)
    · obtain rfl := Option.some.inj hc
      decide
  exact ⟨h, maskedWhole_iff h⟩

/-- A `+` is part of a token and ends the mask. -/
theorem not_maskedWhole_plus : let _ := asciiData
    IsCredential [] "Bearer".toList "abc+def".toList [] ∧ ¬ MaskedWhole [] "Bearer".toList "abc+def".toList [] ∧
    redactString "Bearer abc+def" = "Bearer [REDACTED]+def" := by
  intro _
  refine ⟨⟨by simp, by unfold Spells; decide, ⟨"abc+def".toList, [], by simp, by decide, ?_, by simp⟩, by simp⟩, ?_,
    by decide +kernel⟩
  · exact List.all_eq_true.1 (by decide)
  · intro hall
    have hkept : ('+', true) ∈ redactMarked false (inContext [] "Bearer".toList "abc+def".toList []) := by
      decide +kernel
    exact Bool.noConfusion (hall _ hkept)

end Redaction

end AgentPlatform
