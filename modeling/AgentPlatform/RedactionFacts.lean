/-
What redaction guarantees of every value: nothing it shows holds a JWT or a
bearer credential, entries under the keys of secrets and personal data show a
marker, the rest is unchanged, and redacting again changes nothing.

The languages of the two patterns are `IsJwt` and `IsBearer`. That a masked
text holds no word of either, whatever a marker and the text around it put
together, is `Insulates` of each marker: a word found across the end of the
kept text would have been found in the text before.
-/
import Mathlib.Data.List.Infix
import AgentPlatform.Redaction
import AgentPlatform.Ascii

namespace AgentPlatform

namespace Redaction

open Rewriting Ascii

/-! ## The languages -/

/-- Eight or more characters of a segment. -/
def IsSegment (s : List Char) : Prop := 8 ≤ s.length ∧ ∀ c ∈ s, isSegmentChar c = true

/-- A word of `_JWT_RE`. -/
def IsJwt (w : List Char) : Prop :=
  ∃ h y z, w = 'e' :: 'y' :: 'J' :: (h ++ '.' :: (y ++ '.' :: z)) ∧ IsSegment h ∧ IsSegment y ∧ IsSegment z

/-- A spelling of a word in small letters, in any case. -/
def Spells (s : String) (w : List Char) : Prop := List.Forall₂ (fun l c => foldLetter c = l) s.toList w

section

variable [UnicodeData]

/-- A word of `_BEARER_RE`. -/
def IsBearer (w : List Char) : Prop :=
  ∃ keyword sp token, w = keyword ++ (sp ++ token) ∧ Spells "bearer" keyword ∧
    sp ≠ [] ∧ (∀ c ∈ sp, UnicodeData.isSpace c = true) ∧ token ≠ [] ∧ ∀ c ∈ token, isCredentialChar c = true

end

theorem exactly_eq_some {s : String} {t rest : List Char} : exactly s t = some rest ↔ t = s.toList ++ rest :=
  word_eq_some

theorem anyCase_eq_some {s : String} {t rest : List Char} :
    anyCase s t = some rest ↔ ∃ w, t = w ++ rest ∧ Spells s w := by
  rw [anyCase, literal_eq_some]
  simp [Spells, List.forall₂_map_left_iff]

theorem jwt_steady : jwt.Steady :=
  have hdot : (exactly ".").Steady := literal_steady (by decide)
  have hrun : (run isSegmentChar 8).Steady := run_steady (by decide)
  andThen_steady (literal_steady (by decide)) <| andThen_steady hrun <| andThen_steady hdot <|
    andThen_steady hrun <| andThen_steady hdot hrun

theorem jwt_eq_some {t rest : List Char} :
    jwt t = some rest ↔ ∃ h y z, t = 'e' :: 'y' :: 'J' :: (h ++ '.' :: (y ++ '.' :: (z ++ rest))) ∧
      IsSegment h ∧ IsSegment y ∧ IsSegment z ∧ ∀ c ∈ rest.head?, isSegmentChar c = false := by
  have hdot : ∀ s c, c ∈ ('.' :: s : List Char).head? → isSegmentChar c = false := by
    rintro s c ⟨⟩
    rfl
  unfold jwt
  simp only [andThen_eq_some, exactly_eq_some, run_eq_some]
  constructor
  · rintro ⟨_, rfl, _, ⟨h, rfl, hh, hlh, -⟩, _, rfl, _, ⟨y, rfl, hy, hly, -⟩, _, rfl, z, rfl, hz, hlz, hrest⟩
    exact ⟨h, y, z, rfl, ⟨hlh, hh⟩, ⟨hly, hy⟩, ⟨hlz, hz⟩, hrest⟩
  · rintro ⟨h, y, z, rfl, ⟨hlh, hh⟩, ⟨hly, hy⟩, ⟨hlz, hz⟩, hrest⟩
    exact ⟨_, rfl, _, ⟨h, rfl, hh, hlh, hdot _⟩, _, rfl, _, ⟨y, rfl, hy, hly, hdot _⟩, _, rfl, z, rfl, hz, hlz, hrest⟩

theorem jwt_isJwt {t : List Char} {n : Nat} (h : jwt.pattern t = some n) : ∃ w, w <+: t ∧ IsJwt w ∧ w.length = n := by
  obtain ⟨w, rest, rfl, hrest, rfl⟩ := (pattern_eq_some jwt_steady).1 h
  obtain ⟨h, y, z, ht, hh, hy, hz, -⟩ := jwt_eq_some.1 hrest
  refine ⟨w, List.prefix_append .., ⟨h, y, z, List.append_cancel_right (ht.trans ?_), hh, hy, hz⟩, rfl⟩
  simp

/-- A word at the head of a text is found. -/
theorem jwt_of_prefix {t w : List Char} (hw : IsJwt w) (ht : w <+: t) : jwt.pattern t ≠ none := by
  obtain ⟨u, rfl⟩ := ht
  obtain ⟨h, y, z, rfl, hh, hy, hz⟩ := hw
  intro hnone
  have hfound : jwt ('e' :: 'y' :: 'J' :: (h ++ '.' :: (y ++ '.' :: (z ++ [])))) = some [] :=
    jwt_eq_some.2 ⟨h, y, z, rfl, hh, hy, hz, fun c hc => (by cases hc)⟩
  rw [List.append_nil] at hfound
  rw [pattern_eq_none.1 (jwt_steady.pattern.none_of_append hnone)] at hfound
  cases hfound

/-! ## Characters -/

/-- A letter is compared by an ASCII letter, or is one of the four others. -/
theorem foldLetter_cases (c : Char) :
    (c ∈ foldedLetters ∧ foldLetter c ∈ ['i', 's', 'k']) ∨ foldLetter c = c.toLower := by
  unfold foldLetter
  split
  · rename_i h
    exact .inl ⟨by rcases h with rfl | rfl <;> decide, by simp⟩
  split
  · rename_i h
    exact .inl ⟨by subst h; decide, by simp⟩
  split
  · rename_i h
    exact .inl ⟨by subst h; decide, by simp⟩
  · exact .inr rfl

theorem isCredentialChar_cases {c : Char} (h : isCredentialChar c = true) :
    c ∈ foldedLetters ∨ 32 < c.toNat ∧ c.toNat < 127 := by
  simp only [isCredentialChar, Bool.or_eq_true, beq_iff_eq] at h
  rcases h with ((h | rfl) | rfl) | rfl
  · rcases foldLetter_cases c with ⟨hc, -⟩ | hc
    · exact .inl hc
    · rw [hc] at h
      exact .inr (isAlphanum_range (isAlphanum_of_toLower h))
  all_goals exact .inr (by decide)

theorem foldLetter_of_isAlphanum {c : Char} (h : c.isAlphanum = true) : foldLetter c = c.toLower := by
  refine (foldLetter_cases c).resolve_left fun ⟨hc, _⟩ => ?_
  have hhigh := (isAlphanum_range h).2
  simp only [foldedLetters, List.mem_cons, List.not_mem_nil, or_false] at hc
  rcases hc with rfl | rfl | rfl | rfl <;> exact absurd hhigh (by decide)

theorem isCredentialChar_of_isSegmentChar {c : Char} (h : isSegmentChar c = true) : isCredentialChar c = true := by
  simp only [isSegmentChar, isCredentialChar, Bool.or_eq_true, beq_iff_eq] at h ⊢
  rcases h with (h | h) | h
  · rw [foldLetter_of_isAlphanum h]
    exact .inl (.inl (.inl (isAlphanum_toLower h)))
  · exact .inl (.inr h)
  · exact .inr h

/-- A letter of the keyword, in any case, may stand in a segment. -/
theorem isSegmentChar_of_fold {c l : Char} (hl : l ∈ "bearer".toList) (h : foldLetter c = l) :
    isSegmentChar c = true := by
  have hall : ("bearer".toList.all fun l => l.isAlphanum && (['i', 's', 'k'].contains l).not) = true := by decide
  have hletter := List.all_eq_true.1 hall l hl
  simp only [Bool.and_eq_true, Bool.not_eq_true', List.contains_eq_mem, decide_eq_false_iff_not] at hletter
  rcases foldLetter_cases c with ⟨-, hc⟩ | hc
  · exact absurd (h ▸ hc) hletter.2
  · have halpha : c.isAlphanum = true := isAlphanum_of_toLower (by rw [← hc, h]; exact hletter.1)
    simp [isSegmentChar, halpha]

section

variable [UnicodeData] [LawfulUnicode]

theorem not_isCredentialChar_of_isSpace {c : Char} (h : UnicodeData.isSpace c = true) : isCredentialChar c = false := by
  refine Bool.eq_false_iff.2 fun hc => ?_
  rcases isCredentialChar_cases hc with hmem | ⟨hlow, hhigh⟩
  · rw [LawfulUnicode.isSpace_folded c hmem] at h
    cases h
  · rw [LawfulUnicode.isSpace_ascii c hlow hhigh] at h
    cases h

omit [LawfulUnicode] in
theorem bearer_steady : bearer.Steady :=
  andThen_steady (literal_steady (by decide)) <| andThen_steady (run_steady (by decide)) (run_steady (by decide))

theorem bearer_eq_some {t rest : List Char} :
    bearer t = some rest ↔ ∃ keyword sp token, t = keyword ++ (sp ++ (token ++ rest)) ∧ Spells "bearer" keyword ∧
      (sp ≠ [] ∧ ∀ c ∈ sp, UnicodeData.isSpace c = true) ∧ (token ≠ [] ∧ ∀ c ∈ token, isCredentialChar c = true) ∧
      ∀ c ∈ rest.head?, isCredentialChar c = false := by
  unfold bearer
  simp only [andThen_eq_some, anyCase_eq_some, run_eq_some]
  constructor
  · rintro ⟨_, ⟨keyword, rfl, hk⟩, _, ⟨sp, rfl, hs, hls, -⟩, token, rfl, ht, hlt, hrest⟩
    exact ⟨keyword, sp, token, rfl, hk, ⟨List.ne_nil_of_length_pos hls, hs⟩, ⟨List.ne_nil_of_length_pos hlt, ht⟩, hrest⟩
  · rintro ⟨keyword, sp, token, rfl, hk, ⟨hsne, hs⟩, ⟨htne, ht⟩, hrest⟩
    obtain ⟨d, token, rfl⟩ := List.exists_cons_of_ne_nil htne
    refine ⟨_, ⟨keyword, rfl, hk⟩, _, ⟨sp, rfl, hs, List.length_pos_of_ne_nil hsne, fun c hc => ?_⟩,
      d :: token, rfl, ht, Nat.succ_pos _, hrest⟩
    cases hc
    refine Bool.eq_false_iff.2 fun hsp => ?_
    have hcred := ht _ (List.mem_cons_self ..)
    rw [not_isCredentialChar_of_isSpace hsp] at hcred
    cases hcred

/-! ## What the markers put together -/

/-- The alphabet of a JWT. -/
def InJwt (c : Char) : Prop := isSegmentChar c = true ∨ c = '.'

omit [UnicodeData] [LawfulUnicode] in
theorem IsJwt.inJwt {w : List Char} (hw : IsJwt w) : ∀ c ∈ w, InJwt c := by
  obtain ⟨h, y, z, rfl, ⟨-, hh⟩, ⟨-, hy⟩, ⟨-, hz⟩⟩ := hw
  intro c hc
  simp only [List.mem_cons, List.mem_append] at hc
  rcases hc with rfl | rfl | rfl | hc | rfl | hc | rfl | hc
  all_goals first
    | exact .inl rfl
    | exact .inr rfl
    | exact .inl (hh c hc)
    | exact .inl (hy c hc)
    | exact .inl (hz c hc)

/-- A word across the front of a marker: what the rest of a JWT can tell. -/
def JwtAlike (x y : Char) : Prop :=
  x = y ∨ x ∈ "Bearer".toList ∧ isSegmentChar x = true ∧ isSegmentChar y = true

omit [UnicodeData] [LawfulUnicode] in
theorem IsJwt.alike {c : Char} {w w' : List Char} (hw : IsJwt (c :: w)) (hlike : List.Forall₂ JwtAlike w w') :
    IsJwt (c :: w') := by
  obtain ⟨h, y, z, hcw, hh, hy, hz⟩ := hw
  obtain ⟨rfl, rfl⟩ := List.cons_eq_cons.1 hcw
  have hkeep : ∀ l, l ∉ "Bearer".toList → ∀ d, JwtAlike l d → d = l := fun l hl d hd =>
    (hd.resolve_right fun ⟨hmem, _⟩ => hl hmem).symm
  have hsegment : ∀ {u v}, List.Forall₂ JwtAlike u v → IsSegment u → IsSegment v := fun hlike hu =>
    ⟨hlike.length_eq ▸ hu.1, forall_of_forall₂ (fun x d hd hx => hd.elim (· ▸ hx) (·.2.2)) hlike hu.2⟩
  cases hlike with
  | cons hlike_e hlike =>
  cases hlike with
  | cons hlike_J hlike =>
  obtain ⟨h', t, rfl, hlike_h, hlike⟩ := forall₂_append_left hlike
  cases hlike with
  | cons hdot hlike_yz =>
  obtain ⟨y', t, rfl, hlike_y, hlike_z⟩ := forall₂_append_left hlike_yz
  cases hlike_z with
  | cons hdot' hlike_z =>
    rw [hkeep _ (by decide) _ hlike_e, hkeep _ (by decide) _ hlike_J, hkeep _ (by decide) _ hdot,
      hkeep _ (by decide) _ hdot']
    exact ⟨h', y', _, rfl, hsegment hlike_h hh, hsegment hlike_y hy, hsegment hlike_z hz⟩

omit [UnicodeData] [LawfulUnicode] in
theorem IsJwt.begins {w : List Char} (hw : IsJwt w) : ∃ v, w = 'e' :: 'y' :: v := by
  obtain ⟨h, y, z, rfl, -⟩ := hw
  exact ⟨_, rfl⟩

/-- A text a JWT may begin in. -/
def mayBegin : List Char → Bool
  | ['e'] => true
  | 'e' :: 'y' :: _ => true
  | _ => false

omit [UnicodeData] [LawfulUnicode] in
theorem IsJwt.mayBegin {w s u : List Char} (hw : IsJwt w) (hne : s ≠ []) (hpre : w <+: s ++ u) : mayBegin s = true := by
  obtain ⟨v, rfl⟩ := hw.begins
  obtain ⟨c, s, rfl⟩ := List.exists_cons_of_ne_nil hne
  obtain ⟨rfl, hrest⟩ := List.cons_prefix_cons.1 hpre
  cases s with
  | nil => rfl
  | cons d s =>
    obtain ⟨rfl, -⟩ := List.cons_prefix_cons.1 hrest
    rfl

omit [UnicodeData] [LawfulUnicode] in
/-- A marker no JWT may begin in. -/
theorem not_jwt_marker {marker : List Char} (hmarker : (marker.tails.all fun s => !Redaction.mayBegin s) = true)
    {s u w : List Char} (hs : s <:+ marker) (hne : s ≠ []) (hw : IsJwt w) : ¬ w <+: s ++ u := fun hpre => by
  have hnot := List.all_eq_true.1 hmarker s ((List.mem_tails _ _).2 hs)
  rw [hw.mayBegin hne hpre] at hnot
  cases hnot

omit [UnicodeData] [LawfulUnicode] in
theorem jwt_insulates_jwt :
    Insulates jwt.pattern IsJwt InJwt (· = ·) [] '[' "REDACTED:jwt]".toList where
  ne_nil := fun hw => by obtain ⟨v, rfl⟩ := hw.begins; exact List.cons_ne_nil _ _
  alphabet := fun hw => hw.inJwt
  stops := by rintro (h | h) <;> exact absurd h (by decide)
  refl := fun _ => rfl
  alike := fun {c w w'} hw hlike => by
    have heq : w = w' := List.forall₂_eq_eq_eq ▸ hlike
    rwa [← heq]
  front_alike := fun _ => .nil
  marker := fun hs hne hw => not_jwt_marker (by decide) hs hne hw

omit [UnicodeData] [LawfulUnicode] in
theorem Spells.length_Bearer {w : List Char} (h : Spells "bearer" w) : w.length = "Bearer".toList.length := by
  rw [← h.length_eq]
  decide

omit [UnicodeData] [LawfulUnicode] in
/-- Two spellings of a word, character by character. -/
theorem spells_alike : ∀ {ls v w : List Char}, List.Forall₂ (fun l c => foldLetter c = l) ls v →
    List.Forall₂ (fun l c => foldLetter c = l) ls w →
    List.Forall₂ (fun x y => x ∈ v ∧ ∃ l ∈ ls, foldLetter x = l ∧ foldLetter y = l) v w
  | _, _, _, .nil, .nil => .nil
  | _, _, _, .cons hx hv, .cons hy hw =>
    .cons ⟨List.mem_cons_self .., _, List.mem_cons_self .., hx, hy⟩ <|
      (spells_alike hv hw).imp fun _ _ ⟨hmem, l, hl, hfold⟩ =>
        ⟨List.mem_cons_of_mem _ hmem, l, List.mem_cons_of_mem _ hl, hfold⟩

omit [UnicodeData] [LawfulUnicode] in
theorem spells_Bearer : Spells "bearer" "Bearer".toList := by
  unfold Spells
  decide

theorem bearer_insulates_jwt :
    Insulates bearer.pattern IsJwt InJwt JwtAlike "Bearer".toList ' ' "[REDACTED]".toList where
  ne_nil := fun hw => by obtain ⟨v, rfl⟩ := hw.begins; exact List.cons_ne_nil _ _
  alphabet := fun hw => hw.inJwt
  stops := by rintro (h | h) <;> exact absurd h (by decide)
  refl := fun _ => .inl rfl
  alike := fun hw hlike => hw.alike hlike
  front_alike := fun {t n} h => by
    obtain ⟨w, rest, rfl, hrest, rfl⟩ := (pattern_eq_some bearer_steady).1 h
    obtain ⟨keyword, sp, token, ht, hk, -⟩ := bearer_eq_some.1 hrest
    rw [ht, List.take_left' hk.length_Bearer]
    exact (spells_alike spells_Bearer hk).imp fun x y ⟨hmem, l, hl, hx, hy⟩ =>
      .inr ⟨hmem, isSegmentChar_of_fold hl hx, isSegmentChar_of_fold hl hy⟩
  marker := fun hs hne hw => not_jwt_marker (by decide) hs hne hw

/-- The alphabet of a bearer credential. -/
def InBearer (c : Char) : Prop := UnicodeData.isSpace c = true ∨ isCredentialChar c = true

/-- What the rest of a bearer credential can tell. -/
def BearerAlike (x y : Char) : Prop :=
  (∀ l ∈ "bearer".toList, foldLetter x = l → foldLetter y = l) ∧
  (UnicodeData.isSpace x = true → UnicodeData.isSpace y = true) ∧
  (isCredentialChar x = true → isCredentialChar y = true)

omit [UnicodeData] [LawfulUnicode] in
theorem isCredentialChar_of_fold {c l : Char} (hl : l ∈ "bearer".toList) (h : foldLetter c = l) :
    isCredentialChar c = true :=
  isCredentialChar_of_isSegmentChar (isSegmentChar_of_fold hl h)

omit [UnicodeData] [LawfulUnicode] in
theorem Spells.isCredentialChar {w : List Char} (h : Spells "bearer" w) : ∀ c ∈ w, isCredentialChar c = true := by
  have hself : List.Forall₂ (fun x y => x ∈ w ∧ ∃ l ∈ "bearer".toList, foldLetter x = l ∧ foldLetter y = l) w w :=
    spells_alike h h
  exact forall_of_forall₂ (P := fun _ => True) (fun x y ⟨_, l, hl, _, hy⟩ _ => isCredentialChar_of_fold hl hy) hself
    fun _ _ => trivial

omit [LawfulUnicode] in
theorem IsBearer.inBearer {w : List Char} (hw : IsBearer w) : ∀ c ∈ w, InBearer c := by
  obtain ⟨keyword, sp, token, rfl, hk, -, hs, -, ht⟩ := hw
  intro c hc
  rcases List.mem_append.1 hc with hc | hc
  · exact .inr (hk.isCredentialChar c hc)
  rcases List.mem_append.1 hc with hc | hc
  · exact .inl (hs c hc)
  · exact .inr (ht c hc)

omit [LawfulUnicode] in
theorem spells_of_alike : ∀ {ls v w : List Char}, (∀ l ∈ ls, l ∈ "bearer".toList) →
    List.Forall₂ (fun l c => foldLetter c = l) ls v → List.Forall₂ BearerAlike v w →
    List.Forall₂ (fun l c => foldLetter c = l) ls w
  | _, _, _, _, .nil, .nil => .nil
  | _, _, _, hls, .cons hx hv, .cons hxy hw =>
    .cons (hxy.1 _ (hls _ (List.mem_cons_self ..)) hx) <|
      spells_of_alike (fun l hl => hls l (List.mem_cons_of_mem _ hl)) hv hw

omit [LawfulUnicode] in
theorem IsBearer.alike {c : Char} {w w' : List Char} (hw : IsBearer (c :: w)) (hlike : List.Forall₂ BearerAlike w w') :
    IsBearer (c :: w') := by
  obtain ⟨keyword, sp, token, hcw, hk, hsne, hs, htne, ht⟩ := hw
  cases hk with
  | cons hc hk =>
    obtain ⟨rfl, rfl⟩ := List.cons_eq_cons.1 hcw
    obtain ⟨keyword', t, rfl, hlike_k, hlike⟩ := forall₂_append_left hlike
    obtain ⟨sp', token', rfl, hlike_s, hlike_t⟩ := forall₂_append_left hlike
    have hrest : ∀ l ∈ "earer".toList, l ∈ "bearer".toList := fun l hl => List.mem_cons_of_mem 'b' hl
    refine ⟨_ :: keyword', sp', token', rfl, .cons hc (spells_of_alike hrest hk hlike_k), ?_,
      forall_of_forall₂ (fun _ _ h => h.2.1) hlike_s hs, ?_, forall_of_forall₂ (fun _ _ h => h.2.2) hlike_t ht⟩
    · rintro rfl
      exact hsne (List.forall₂_nil_right_iff.1 hlike_s)
    · rintro rfl
      exact htne (List.forall₂_nil_right_iff.1 hlike_t)

theorem not_inBearer_bracket : ¬ InBearer '[' := by
  rintro (h | h)
  · rw [LawfulUnicode.isSpace_ascii '[' (by decide) (by decide)] at h
    cases h
  · exact absurd h (by decide)

/-- No bearer credential begins in the marker: after the keyword and the space
comes the bracket. -/
theorem not_bearer_marker {s u w : List Char} (hs : s <:+ bearerMarker) (hne : s ≠ []) (hw : IsBearer w) :
    ¬ w <+: s ++ u := by
  rintro ⟨v, hv⟩
  obtain ⟨keyword, sp, token, rfl, hk, hsne, hsp, htne, ht⟩ := hw
  have hall : (bearerMarker.tails.all fun t => t.isEmpty || t.head?.map foldLetter != some 'b' || t == bearerMarker) =
      true := by decide
  have hwhole := List.all_eq_true.1 hall s ((List.mem_tails _ _).2 hs)
  simp only [Bool.or_eq_true, List.isEmpty_iff, bne_iff_ne, ne_eq, beq_iff_eq] at hwhole
  have hb : s.head?.map foldLetter = some 'b' := by
    obtain ⟨c, s, rfl⟩ := List.exists_cons_of_ne_nil hne
    cases hk with
    | cons hc hk =>
      obtain ⟨rfl, -⟩ := List.cons_eq_cons.1 hv
      exact congrArg some hc
  obtain rfl : s = bearerMarker := (hwhole.resolve_left fun h => h.elim hne (· hb))
  have hsplit : keyword ++ (sp ++ token ++ v) = "Bearer".toList ++ (" [REDACTED]".toList ++ u) := by
    rw [← List.append_assoc, hv]
    rfl
  obtain ⟨-, hrest⟩ := List.append_inj hsplit hk.length_Bearer
  obtain ⟨c, sp, rfl⟩ := List.exists_cons_of_ne_nil hsne
  have hafter : sp ++ token ++ v = "[REDACTED]".toList ++ u := (List.cons_eq_cons.1 hrest).2
  have hbracket : '[' ∈ sp ++ token := by
    cases hst : sp ++ token with
    | nil => exact absurd (List.append_eq_nil_iff.1 hst).2 htne
    | cons d st =>
      rw [hst] at hafter
      obtain ⟨rfl, -⟩ := List.cons_eq_cons.1 hafter
      exact List.mem_cons_self ..
  refine not_inBearer_bracket ?_
  rcases List.mem_append.1 hbracket with h | h
  · exact .inl (hsp _ (List.mem_cons_of_mem _ h))
  · exact .inr (ht _ h)

theorem bearerAlike_of_fold {x y l : Char} (hl : l ∈ "bearer".toList) (hx : foldLetter x = l) (hy : foldLetter y = l) :
    BearerAlike x y := by
  refine ⟨fun _ _ h => hy.trans (hx.symm.trans h), fun h => ?_, fun _ => isCredentialChar_of_fold hl hy⟩
  have hnot := not_isCredentialChar_of_isSpace h
  rw [isCredentialChar_of_fold hl hx] at hnot
  cases hnot

theorem bearer_insulates_bearer :
    Insulates bearer.pattern IsBearer InBearer BearerAlike "Bearer ".toList '[' "REDACTED]".toList where
  ne_nil := fun ⟨keyword, sp, token, hw, _, hsne, _⟩ h => by
    subst hw
    exact hsne (List.append_eq_nil_iff.1 (List.append_eq_nil_iff.1 h).2).1
  alphabet := fun hw => hw.inBearer
  stops := not_inBearer_bracket
  refl := fun _ => ⟨fun _ _ h => h, fun h => h, fun h => h⟩
  alike := fun hw hlike => hw.alike hlike
  front_alike := fun {t n} h => by
    obtain ⟨w, rest, rfl, hrest, rfl⟩ := (pattern_eq_some bearer_steady).1 h
    obtain ⟨keyword, sp, token, ht, hk, ⟨hsne, hs⟩, -⟩ := bearer_eq_some.1 hrest
    obtain ⟨c, sp, rfl⟩ := List.exists_cons_of_ne_nil hsne
    have hlen : (keyword ++ [c]).length = "Bearer ".toList.length := by
      rw [List.length_append, hk.length_Bearer]
      rfl
    have htake : (w ++ rest).take "Bearer ".toList.length = keyword ++ [c] := by
      have hleft : (keyword ++ [c] ++ (sp ++ (token ++ rest))).take "Bearer ".toList.length = keyword ++ [c] :=
        List.take_left' hlen
      rw [ht, ← hleft]
      simp
    rw [htake]
    have hkeyword : List.Forall₂ BearerAlike "Bearer".toList keyword :=
      (spells_alike spells_Bearer hk).imp fun x y ⟨_, l, hl, hx, hy⟩ =>
        bearerAlike_of_fold hl hx hy
    have hspace : BearerAlike ' ' c :=
      ⟨fun l hl h => by
        subst h
        exact absurd hl (by decide), fun _ => hs c (List.mem_cons_self ..), fun h => absurd h (by decide)⟩
    exact List.rel_append hkeyword (.cons hspace .nil)
  marker := fun hs hne hw => not_bearer_marker hs hne hw

/-! ## Texts -/

/-- The text shows no credential. -/
def ShowsNone (t : List Char) : Prop := ∀ w, IsJwt w ∨ IsBearer w → ¬ w <:+: t

omit [UnicodeData] [LawfulUnicode] in
theorem jwt_of_prefix_none {t w : List Char} (ht : jwt.pattern t = none) (hw : IsJwt w) : ¬ w <+: t := fun hpre =>
  jwt_of_prefix hw hpre ht

theorem bearer_isBearer {t : List Char} {n : Nat} (h : bearer.pattern t = some n) : ∃ w, w <+: t ∧ IsBearer w := by
  obtain ⟨w, rest, rfl, hrest, rfl⟩ := (pattern_eq_some bearer_steady).1 h
  obtain ⟨keyword, sp, token, ht, hk, ⟨hsne, hs⟩, ⟨htne, htok⟩, -⟩ := bearer_eq_some.1 hrest
  refine ⟨w, List.prefix_append .., keyword, sp, token, List.append_cancel_right (ht.trans ?_),
    hk, hsne, hs, htne, htok⟩
  simp

/-- A word at the head of a text is found. -/
theorem bearer_of_prefix_none {t w : List Char} (ht : bearer.pattern t = none) (hw : IsBearer w) : ¬ w <+: t := by
  rintro ⟨u, rfl⟩
  obtain ⟨keyword, sp, token, rfl, hk, hsne, hs, htne, htok⟩ := hw
  have hfound : bearer (keyword ++ (sp ++ (token ++ []))) = some [] :=
    bearer_eq_some.2 ⟨keyword, sp, token, rfl, hk, ⟨hsne, hs⟩, ⟨htne, htok⟩, fun c hc => (by cases hc)⟩
  rw [List.append_nil] at hfound
  rw [pattern_eq_none.1 (bearer_steady.pattern.none_of_append ht)] at hfound
  cases hfound

omit [UnicodeData] [LawfulUnicode] in
theorem jwt_masked {t w : List Char} (hw : IsJwt w) : ¬ w <:+: sub jwt.pattern jwtMarker 0 t :=
  jwt_insulates_jwt.sub_free (fun _ _ hnone _ hw => jwt_of_prefix_none hnone hw) hw

theorem redactString_shows_none (s : String) : ShowsNone (redactString s).toList := by
  intro w hw
  rw [redactString, String.toList_ofList]
  rcases hw with hw | hw
  · refine bearer_insulates_jwt.sub_free (fun t ht _ w hw hpre => ?_) hw
    exact jwt_masked hw (List.infix_iff_prefix_suffix.2 ⟨t, hpre, ht⟩)
  · exact bearer_insulates_bearer.sub_free (fun _ _ hnone _ hw => bearer_of_prefix_none hnone hw) hw

/-- A text that shows none is left as it is. -/
theorem redactString_eq_self {s : String} (h : ShowsNone s.toList) : redactString s = s := by
  have hjwt : sub jwt.pattern jwtMarker 0 s.toList = s.toList := sub_eq_self fun t ht _ => by
    cases hn : jwt.pattern t with
    | none => rfl
    | some n =>
      obtain ⟨w, hpre, hw, -⟩ := jwt_isJwt hn
      exact absurd (List.infix_iff_prefix_suffix.2 ⟨t, hpre, ht⟩) (h w (.inl hw))
  have hbearer : sub bearer.pattern bearerMarker 0 s.toList = s.toList := sub_eq_self fun t ht _ => by
    cases hn : bearer.pattern t with
    | none => rfl
    | some n =>
      obtain ⟨w, hpre, hw⟩ := bearer_isBearer hn
      exact absurd (List.infix_iff_prefix_suffix.2 ⟨t, hpre, ht⟩) (h w (.inr hw))
  rw [redactString, hjwt, hbearer, String.ofList_toList]

theorem redactString_idem (s : String) : redactString (redactString s) = redactString s :=
  redactString_eq_self (redactString_shows_none s)

end

/-! ## Values -/

section Values

variable {κ ς : Type} [UnicodeData]

mutual

/-- Every string shown shows no credential, and the entries under the keys of
secrets and of personal data show the markers. -/
def Safe (rules : KeyRules κ) : Value κ ς → Prop
  | .scalar _ => True
  | .str s => ShowsNone s.toList
  | .list vs => SafeItems rules vs
  | .tuple vs => SafeItems rules vs
  | .dict fs => SafeFields rules fs

def SafeItems (rules : KeyRules κ) : List (Value κ ς) → Prop
  | [] => True
  | v :: vs => Safe rules v ∧ SafeItems rules vs

def SafeFields (rules : KeyRules κ) : List (κ × Value κ ς) → Prop
  | [] => True
  | (k, v) :: fs =>
    (if isSecretKey (rules.text k) then v = .str redacted
      else if isPiiKey rules (rules.text k) then v = .str redactedPii
      else Safe rules v) ∧ SafeFields rules fs

end

mutual

/-- The second value has the keys and the scalars of the first, where no key
hides them. A tuple becomes a list. -/
def Mirrors (rules : KeyRules κ) : Value κ ς → Value κ ς → Prop
  | .scalar x, v => v = .scalar x
  | .str _, v => ∃ s, v = .str s
  | .list vs, v => ∃ vs', v = .list vs' ∧ MirrorsItems rules vs vs'
  | .tuple vs, v => ∃ vs', v = .list vs' ∧ MirrorsItems rules vs vs'
  | .dict fs, v => ∃ fs', v = .dict fs' ∧ MirrorsFields rules fs fs'

def MirrorsItems (rules : KeyRules κ) : List (Value κ ς) → List (Value κ ς) → Prop
  | [], vs' => vs' = []
  | v :: vs, vs' => ∃ v' rest, vs' = v' :: rest ∧ Mirrors rules v v' ∧ MirrorsItems rules vs rest

def MirrorsFields (rules : KeyRules κ) : List (κ × Value κ ς) → List (κ × Value κ ς) → Prop
  | [], fs' => fs' = []
  | (k, v) :: fs, fs' => ∃ v' rest, fs' = (k, v') :: rest ∧
      (isSecretKey (rules.text k) = false → isPiiKey rules (rules.text k) = false → Mirrors rules v v') ∧
      MirrorsFields rules fs rest

end

variable (rules : KeyRules κ)

mutual

theorem redact_safe [LawfulUnicode] : ∀ v : Value κ ς, Safe rules (redact rules v)
  | .scalar _ => trivial
  | .str s => redactString_shows_none s
  | .list vs => redactItems_safe vs
  | .tuple vs => redactItems_safe vs
  | .dict fs => redactFields_safe fs

theorem redactItems_safe [LawfulUnicode] : ∀ vs : List (Value κ ς), SafeItems rules (redactItems rules vs)
  | [] => trivial
  | v :: vs => ⟨redact_safe v, redactItems_safe vs⟩

theorem redactFields_safe [LawfulUnicode] : ∀ fs : List (κ × Value κ ς), SafeFields rules (redactFields rules fs)
  | [] => trivial
  | (k, v) :: fs => by
    refine ⟨?_, redactFields_safe fs⟩
    split
    · rfl
    split
    · rfl
    · exact redact_safe v

end

mutual

theorem redact_mirrors : ∀ v : Value κ ς, Mirrors rules v (redact rules v)
  | .scalar _ => rfl
  | .str s => ⟨redactString s, rfl⟩
  | .list vs => ⟨_, rfl, redactItems_mirrors vs⟩
  | .tuple vs => ⟨_, rfl, redactItems_mirrors vs⟩
  | .dict fs => ⟨_, rfl, redactFields_mirrors fs⟩

theorem redactItems_mirrors : ∀ vs : List (Value κ ς), MirrorsItems rules vs (redactItems rules vs)
  | [] => rfl
  | v :: vs => ⟨_, _, rfl, redact_mirrors v, redactItems_mirrors vs⟩

theorem redactFields_mirrors : ∀ fs : List (κ × Value κ ς), MirrorsFields rules fs (redactFields rules fs)
  | [] => rfl
  | (k, v) :: fs => by
    refine ⟨_, _, rfl, fun hsecret hpii => ?_, redactFields_mirrors fs⟩
    rw [hsecret, hpii]
    exact redact_mirrors v

end

mutual

/-- Redacting what shows nothing. -/
theorem redact_idem [LawfulUnicode] : ∀ v : Value κ ς, redact rules (redact rules v) = redact rules v
  | .scalar _ => rfl
  | .str s => congrArg Value.str (redactString_idem s)
  | .list vs => congrArg Value.list (redactItems_idem vs)
  | .tuple vs => congrArg Value.list (redactItems_idem vs)
  | .dict fs => congrArg Value.dict (redactFields_idem fs)

theorem redactItems_idem [LawfulUnicode] : ∀ vs : List (Value κ ς),
    redactItems rules (redactItems rules vs) = redactItems rules vs
  | [] => rfl
  | v :: vs => congrArg₂ List.cons (redact_idem v) (redactItems_idem vs)

theorem redactFields_idem [LawfulUnicode] : ∀ fs : List (κ × Value κ ς),
    redactFields rules (redactFields rules fs) = redactFields rules fs
  | [] => rfl
  | (k, v) :: fs => by
    simp only [redactFields]
    rw [redactFields_idem fs]
    refine congrArg (fun v => (k, v) :: redactFields rules fs) ?_
    split
    · rfl
    split
    · rfl
    · exact redact_idem v

end

/-- Redaction is deep and stable. -/
theorem redact_deep_stable [LawfulUnicode] (v : Value κ ς) :
    Safe rules (redact rules v) ∧ Mirrors rules v (redact rules v) ∧ redact rules (redact rules v) = redact rules v :=
  ⟨redact_safe rules v, redact_mirrors rules v, redact_idem rules v⟩

end Values

/-- Plain string keys, with the lowering of ASCII. -/
def plainRules : KeyRules String := ⟨id, String.toLower, ["Nickname"]⟩

/-- A token in a tuple under an innocent key, and a configured name. -/
theorem redact_deep_stable_note :
    let value : Value String Nat := .dict [("note", .tuple [.str "Bearer abc", .scalar 3]), ("nickname ", .str "Al")]
    @redact _ _ asciiData plainRules value =
      .dict [("note", .list [.str "Bearer [REDACTED]", .scalar 3]), ("nickname ", .str redactedPii)] ∧
    @Safe _ _ asciiData plainRules (@redact _ _ asciiData plainRules value) := by
  let _ := asciiData
  have : LawfulUnicode := asciiData_lawful
  intro value
  have hnote : isSecretKey "note" = false ∧ isPiiKey plainRules "note" = false := by decide +kernel
  have hnick : isSecretKey "nickname " = false ∧ isPiiKey plainRules "nickname " = true := by
    have hstrip : String.ofList (Py.strip "nickname ".toList) = "nickname" := by decide +kernel
    have hlower : "Nickname".toLower = "nickname" ∧ "nickname".toLower = "nickname" := by decide +kernel
    have hkey : plainRules.extraKeys.contains
        (plainRules.lower (String.ofList (Py.strip "nickname ".toList))) = true := by
      rw [hstrip]
      exact List.contains_iff_mem.2
        (List.mem_map.2 ⟨"Nickname", List.mem_singleton_self _, hlower.1.trans hlower.2.symm⟩)
    exact ⟨by decide +kernel, by rw [isPiiKey, hkey, Bool.or_true]⟩
  have htext : redactString "Bearer abc" = "Bearer [REDACTED]" := by decide +kernel
  refine ⟨?_, (redact_deep_stable plainRules value).1⟩
  have htextOf : ∀ k, plainRules.text k = k := fun _ => rfl
  simp only [value, redact, redactFields, redactItems, htextOf, hnote, hnick, htext, Bool.false_eq_true, if_false,
    if_true]

end Redaction

end AgentPlatform
