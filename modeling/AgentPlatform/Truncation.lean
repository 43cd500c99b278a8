/-
Texts that are cut before they are masked: the `reason` of a `tool.error`
record (`app/tools/enforcement.py`) and the `body` of an `exchange.failed`
record (`sdk/agentnhi/exchange.py`).

A JWT that the cut leaves eight characters of its signature is still a JWT, and
is masked. One that is cut earlier is none: what is left of it shows, unless
it stands in the token of a bearer credential.
-/
import AgentPlatform.Masking
import AgentPlatform.Enforcement

namespace AgentPlatform

namespace Redaction

open Rewriting

/-! ## The records -/

mutual

/-- A JSON value, as `redact` takes it. -/
def ofJson : Json → Value String Json
  | .str s => .str s
  | .arr xs => .list (ofJsonItems xs)
  | .obj fs => .dict (ofJsonFields fs)
  | v => .scalar v

def ofJsonItems : List Json → List (Value String Json)
  | [] => []
  | x :: xs => ofJson x :: ofJsonItems xs

def ofJsonFields : List (String × Json) → List (String × Value String Json)
  | [] => []
  | (k, v) :: fs => (k, ofJson v) :: ofJsonFields fs

end

/-- A field made of a text that is cut first. -/
structure CutSite where
  key : String
  cut : Nat

/-- `reason=str(exc)[:200]` -/
def toolErrorReason : CutSite := ⟨"reason", 200⟩

/-- `body=resp.text[:300]` -/
def exchangeFailedBody : CutSite := ⟨"body", 300⟩

def cutSites : List CutSite := [toolErrorReason, exchangeFailedBody]

/-- The field of a text. -/
def CutSite.field (site : CutSite) (text : String) : String × Json := (site.key, .str (clip site.cut text))

/-- What `exchange` records of a response that is not a success. -/
def exchangeFailed (status : Json) (text : String) : AuditRecord :=
  ⟨"exchange.failed", [("status", status), exchangeFailedBody.field text]⟩

section Records

variable [UnicodeData]

/-- The fields of a record as `audit` emits them. -/
def emitted (rules : KeyRules String) (record : AuditRecord) : List (String × Value String Json) :=
  redactFields rules (ofJsonFields record.fields)

/-- What a record shows of a text at a site, its characters marked. -/
def shownMarked (rules : KeyRules String) (site : CutSite) (t : List (Char × Bool)) : List (Char × Bool) :=
  if isSecretKey site.key then marked false redacted.toList
  else if isPiiKey rules site.key then marked false redactedPii.toList
  else redactMarked false (t.take site.cut)

theorem mem_emitted (rules : KeyRules String) {k : String} {v : Json} : ∀ {fs : List (String × Json)},
    (k, v) ∈ fs → (k, if isSecretKey (rules.text k) then .str redacted
      else if isPiiKey rules (rules.text k) then .str redactedPii
      else redact rules (ofJson v)) ∈ redactFields rules (ofJsonFields fs)
  | (j, w) :: fs, h => by
    rw [ofJsonFields, redactFields]
    rcases List.mem_cons.1 h with h | h
    · obtain ⟨rfl, rfl⟩ := Prod.mk.inj h
      exact List.mem_cons_self ..
    · exact List.mem_cons_of_mem _ (mem_emitted rules h)

/-- The record of a cut text shows the text so marked. -/
theorem emitted_shows (rules : KeyRules String) (hrules : ∀ k, rules.text k = k) {site : CutSite} {record : AuditRecord}
    {text : String} (hfield : site.field text ∈ record.fields) {t : List (Char × Bool)}
    (ht : t.map Prod.fst = text.toList) :
    (site.key, .str (String.ofList ((shownMarked rules site t).map Prod.fst))) ∈ emitted rules record := by
  have hmem := mem_emitted rules hfield
  rw [hrules] at hmem
  unfold shownMarked
  split
  · rename_i hsecret
    rw [if_pos hsecret] at hmem
    simpa [emitted] using hmem
  split
  · rename_i hsecret hpii
    rw [if_neg hsecret, if_pos hpii] at hmem
    simpa [emitted] using hmem
  · rename_i hsecret hpii
    rw [if_neg hsecret, if_neg hpii] at hmem
    rw [map_redactMarked, List.map_take, ht, String.ofList_toList]
    exact hmem

/-- The tool server records a handler's exception at its site. -/
theorem execute_cuts {σ : Type} {d : Delegation} {token toolName : String} {tool : Tool σ} {callArgs : Args}
    {key : Option String} {decision : PolicyResult} {s s' : σ} {exc : Exn}
    (h : tool.handler ⟨callArgs, d.tenant, if tool.idempotent then some key else none⟩ (some token) s =
      (.error exc, s')) :
    ∃ record, .audit record ∈ (Enforcer.execute d token toolName tool callArgs key decision s).trace ∧
      record.event = "tool.error" ∧ toolErrorReason.field exc.msg ∈ record.fields := by
  refine ⟨⟨"tool.error", [("spiffe_id", .str d.workload), ("sub", .str d.user), ("tenant", .str d.tenantOrEmpty),
    ("tool", .str toolName), ("reason", .str (clip 200 exc.msg))]⟩, ?_, rfl, by simp [CutSite.field, toolErrorReason]⟩
  simp [Enforcer.execute, h, Enforcer.record]

end Records

/-! ## A JWT in a text -/

/-- A JWT that the mask finds in a text that is not cut. -/
structure FoundJwt (a header payload signature c : List Char) : Prop where
  isHeader : ∃ h, header = 'e' :: 'y' :: 'J' :: h ∧ IsSegment h
  isPayload : IsSegment payload
  isSignature : IsSegment signature
  whole : ∀ x ∈ c.head?, isSegmentChar x = false
  found : leftover jwt.pattern 0 a (header ++ '.' :: (payload ++ '.' :: (signature ++ c))) = 0

/-- No eight marked characters stand in a row. -/
def RunsShort (t : List (Char × Bool)) : Prop := ∀ r, r <:+: t → (∀ c ∈ r, c.2 = true) → r.length < 8

/-- The text, the characters of the header marked. -/
def markHeader (a header payload signature c : List Char) : List (Char × Bool) :=
  marked false a ++ (marked true header ++ marked false ('.' :: payload) ++ marked false ('.' :: (signature ++ c)))

/-- The text, the characters of the payload marked. -/
def markPayload (a header payload signature c : List Char) : List (Char × Bool) :=
  marked false a ++ (marked false (header ++ ['.']) ++ marked true payload ++ marked false ('.' :: (signature ++ c)))

theorem runsShort_of_allUnmarked {t : List (Char × Bool)} (h : AllUnmarked t) : RunsShort t := by
  intro r hr hall
  cases r with
  | nil => exact Nat.succ_pos _
  | cons c r =>
    have hfalse := h c (hr.subset (List.mem_cons_self ..))
    rw [hall c (List.mem_cons_self ..)] at hfalse
    cases hfalse

/-- Fewer than eight characters beside the unmarked ones. -/
theorem runsShort_append {f t : List (Char × Bool)} (hf : AllUnmarked f) (ht : t.length < 8) : RunsShort (f ++ t) := by
  intro r hr hall
  have hcount : r.countP (·.2) ≤ (f ++ t).countP (·.2) := hr.sublist.countP_le
  have hr' : r.countP (·.2) = r.length := List.countP_eq_length.2 hall
  have hf' : f.countP (·.2) = 0 := List.countP_eq_zero.2 fun c hc => by simp [hf c hc]
  have ht' : t.countP (·.2) ≤ t.length := List.countP_le_length
  rw [List.countP_append] at hcount
  omega

theorem IsSegment.not_mem {s : List Char} (h : IsSegment s) : '.' ∉ s := fun hdot => absurd (h.2 _ hdot) (by decide)

/-- A JWT cut before the eighth character of its signature is none, and holds
none. -/
theorem cut_jwt_eq_none {header payload rest v s : List Char} (hh : '.' ∉ header) (hp : '.' ∉ payload)
    (hv : v <+: header ++ '.' :: (payload ++ '.' :: rest)) (hlen : v.length < header.length + payload.length + 10)
    (hs : s <:+ v) : jwt s = none := by
  cases hj : jwt s with
  | none => rfl
  | some after =>
    obtain ⟨h, y, z, rfl, -, -, ⟨hz, -⟩, -⟩ := jwt_eq_some.1 hj
    obtain ⟨pre, rfl⟩ := hs
    obtain ⟨u, hu⟩ := hv
    have hsplit : header ++ '.' :: (payload ++ '.' :: rest) =
        (pre ++ 'e' :: 'y' :: 'J' :: h) ++ '.' :: (y ++ '.' :: (z ++ after ++ u)) := by
      rw [← hu]
      simp
    have hle := length_le_of_not_mem_twice hh hp hsplit
    simp only [List.length_append, List.length_cons] at hle hlen
    omega

section Visible

variable {a header payload signature c : List Char}

theorem FoundJwt.header_not_mem (h : FoundJwt a header payload signature c) : '.' ∉ header := by
  obtain ⟨t, rfl, ht⟩ := h.isHeader
  simpa using ht.not_mem

theorem FoundJwt.header_long (h : FoundJwt a header payload signature c) : 11 ≤ header.length := by
  obtain ⟨t, rfl, ht, -⟩ := h.isHeader
  simp only [List.length_cons]
  omega

theorem FoundJwt.header_segment (h : FoundJwt a header payload signature c) : ∀ x ∈ header, isSegmentChar x = true := by
  obtain ⟨t, rfl, -, ht⟩ := h.isHeader
  intro x hx
  simp only [List.mem_cons] at hx
  rcases hx with rfl | rfl | rfl | hx
  · rfl
  · rfl
  · rfl
  · exact ht x hx

/-- What is left of a text that is cut is masked behind what comes before. -/
theorem FoundJwt.mask_cut (h : FoundJwt a header payload signature c) {v : List (Char × Bool)}
    (hv : v.map Prod.fst <+: header ++ '.' :: (payload ++ '.' :: (signature ++ c))) :
    mask jwt jwtMarker false (marked false a ++ v) =
      mask jwt jwtMarker false (marked false a) ++ mask jwt jwtMarker false v := by
  obtain ⟨u, hu⟩ := hv
  have hfound : leftover jwt.pattern 0 a (v.map Prod.fst ++ u) = 0 := hu ▸ h.found
  have hcut := (scan_cut (r := []) jwt_steady.pattern (hfound.le.trans (Nat.zero_le (v.map Prod.fst).length))).1
  exact mask_append jwt_steady (by simpa using hcut.trans hfound)

/-- With fewer, it stays as it is. -/
theorem FoundJwt.unmasked (h : FoundJwt a header payload signature c) {x : List (Char × Bool)}
    (hx : x.map Prod.fst = header ++ '.' :: payload) {k : Nat} (hk : k < x.length + 9) :
    mask jwt jwtMarker false (marked false a ++ (x ++ marked false ('.' :: (signature ++ c))).take k) =
      mask jwt jwtMarker false (marked false a) ++ (x ++ marked false ('.' :: (signature ++ c))).take k := by
  have hchars : (x ++ marked false ('.' :: (signature ++ c))).map Prod.fst =
      header ++ '.' :: (payload ++ '.' :: (signature ++ c)) := by
    rw [List.map_append, hx, map_marked]
    simp
  have hpre : ((x ++ marked false ('.' :: (signature ++ c))).take k).map Prod.fst <+:
      header ++ '.' :: (payload ++ '.' :: (signature ++ c)) := by
    rw [List.map_take, hchars]
    exact List.take_prefix ..
  have hxlen : x.length = header.length + payload.length + 1 := by
    have := congrArg List.length hx
    simp only [List.length_map, List.length_append, List.length_cons] at this
    omega
  rw [h.mask_cut hpre]
  congr 1
  refine mask_eq_self fun s hs => cut_jwt_eq_none h.header_not_mem h.isPayload.not_mem hpre ?_ (hs.map Prod.fst)
  rw [List.length_map, List.length_take]
  omega

variable [UnicodeData]

/-- With eight characters of its signature, the JWT is masked. -/
theorem FoundJwt.masked (h : FoundJwt a header payload signature c) {x : List (Char × Bool)}
    (hx : x.map Prod.fst = header ++ '.' :: payload) {k : Nat} (hk : x.length + 9 ≤ k) :
    AllUnmarked (redactMarked false (marked false a ++ (x ++ marked false ('.' :: (signature ++ c))).take k)) := by
  obtain ⟨j, rfl⟩ := Nat.exists_eq_add_of_le hk
  obtain ⟨t, rfl, ht⟩ := h.isHeader
  have htake : (x ++ marked false ('.' :: (signature ++ c))).take (x.length + 9 + j) =
      x ++ marked false ('.' :: (signature ++ c).take (8 + j)) := by
    rw [List.take_append, List.take_of_length_le (by omega)]
    have hsub : x.length + 9 + j - x.length = (8 + j) + 1 := by omega
    rw [hsub, marked_cons, List.take_succ_cons, marked, ← List.map_take]
    rfl
  have hcut : ((signature ++ c).take (8 + j)).takeWhile isSegmentChar ++
      ((signature ++ c).take (8 + j)).dropWhile isSegmentChar = (signature ++ c).take (8 + j) :=
    List.takeWhile_append_dropWhile
  have hlong : 8 ≤ (((signature ++ c).take (8 + j)).takeWhile isSegmentChar).length := by
    have height : (signature ++ c).take (8 + j) = signature.take 8 ++ ((signature.drop 8 ++ c).take j) := by
      rw [List.take_add, List.take_append_of_le_length h.isSignature.1, List.drop_append_of_le_length h.isSignature.1]
    rw [height, List.takeWhile_append_of_pos fun y hy => h.isSignature.2 y (List.mem_of_mem_take hy),
      List.length_append, List.length_take, Nat.min_eq_left h.isSignature.1]
    exact Nat.le_add_right ..
  generalize hz : ((signature ++ c).take (8 + j)).takeWhile isSegmentChar = z at hcut hlong
  generalize hr : ((signature ++ c).take (8 + j)).dropWhile isSegmentChar = r at hcut
  have hzr : ∀ y ∈ z, isSegmentChar y = true := fun y hy => List.mem_takeWhile_imp (hz ▸ hy)
  have hrest : ∀ y ∈ r.head?, isSegmentChar y = false := hr ▸ head?_dropWhile isSegmentChar _
  have hfound : jwt ((x ++ marked false ('.' :: z) ++ marked false r).map Prod.fst) =
      some ((marked false r).map Prod.fst) := by
    rw [map_marked]
    refine jwt_eq_some.2 ⟨t, payload, z, ?_, ht, h.isPayload, ⟨hlong, hzr⟩, hrest⟩
    rw [List.map_append, List.map_append, hx, map_marked, map_marked]
    simp
  have hne : x ++ marked false ('.' :: z) ≠ [] := by simp
  have hsplit : x ++ marked false ('.' :: (signature ++ c).take (8 + j)) =
      x ++ marked false ('.' :: z) ++ marked false r := by
    rw [← hcut]
    simp
  have hpre : (x ++ marked false ('.' :: (signature ++ c).take (8 + j))).map Prod.fst <+:
      'e' :: 'y' :: 'J' :: t ++ '.' :: (payload ++ '.' :: (signature ++ c)) := by
    refine ⟨(signature ++ c).drop (8 + j), ?_⟩
    rw [List.map_append, hx, map_marked]
    simp
  rw [redactMarked, htake, h.mask_cut hpre, hsplit, mask_match hne hfound]
  have hall : AllUnmarked (mask jwt jwtMarker false (marked false a) ++
      (marked false jwtMarker ++ mask jwt jwtMarker false (marked false r))) :=
    allUnmarked_append.2 ⟨(allUnmarked_marked a).mask,
      allUnmarked_append.2 ⟨allUnmarked_marked _, (allUnmarked_marked r).mask⟩⟩
  exact hall.mask

variable [LawfulUnicode]

/-- What is left of the text from the JWT on. -/
def visible (site : CutSite) (a header payload signature c : List Char) : List Char :=
  (header ++ '.' :: (payload ++ '.' :: (signature ++ c))).take (site.cut - a.length)

omit [UnicodeData] [LawfulUnicode] in
theorem isCredentialChar_dot : isCredentialChar '.' = true := by decide

omit [UnicodeData] [LawfulUnicode] in
theorem FoundJwt.visible_credential (h : FoundJwt a header payload signature c) {k : Nat}
    (hk : k < header.length + payload.length + 10) :
    ∀ y ∈ (header ++ '.' :: (payload ++ '.' :: (signature ++ c))).take k, isCredentialChar y = true := by
  intro y hy
  have hsplit : header ++ '.' :: (payload ++ '.' :: (signature ++ c)) =
      (header ++ '.' :: (payload ++ '.' :: signature)) ++ c := by simp
  have hlen : k ≤ (header ++ '.' :: (payload ++ '.' :: signature)).length := by
    have := h.isSignature.1
    simp only [List.length_append, List.length_cons]
    omega
  rw [hsplit, List.take_append_of_le_length hlen] at hy
  have hmem := List.mem_of_mem_take hy
  simp only [List.mem_append, List.mem_cons] at hmem
  rcases hmem with hmem | rfl | hmem | rfl | hmem
  · exact isCredentialChar_of_isSegmentChar (h.header_segment y hmem)
  · exact isCredentialChar_dot
  · exact isCredentialChar_of_isSegmentChar (h.isPayload.2 y hmem)
  · exact isCredentialChar_dot
  · exact isCredentialChar_of_isSegmentChar (h.isSignature.2 y hmem)

/-- Cut too early, the rest of the text shows, unless a credential takes it. -/
theorem FoundJwt.shown (h : FoundJwt a header payload signature c) {x : List (Char × Bool)}
    (hx : x.map Prod.fst = header ++ '.' :: payload) {k : Nat} (hk : k < x.length + 9) :
    (leftover bearer.pattern 0 (sub jwt.pattern jwtMarker 0 a)
        ((header ++ '.' :: (payload ++ '.' :: (signature ++ c))).take k) = 0 →
      ∃ f, AllUnmarked f ∧ redactMarked false (marked false a ++ (x ++ marked false ('.' :: (signature ++ c))).take k) =
        f ++ (x ++ marked false ('.' :: (signature ++ c))).take k) ∧
    (leftover bearer.pattern 0 (sub jwt.pattern jwtMarker 0 a)
        ((header ++ '.' :: (payload ++ '.' :: (signature ++ c))).take k) ≠ 0 →
      AllUnmarked (redactMarked false (marked false a ++ (x ++ marked false ('.' :: (signature ++ c))).take k))) := by
  have hchars : ((x ++ marked false ('.' :: (signature ++ c))).take k).map Prod.fst =
      (header ++ '.' :: (payload ++ '.' :: (signature ++ c))).take k := by
    rw [List.map_take, List.map_append, hx, map_marked]
    simp
  have hxlen : x.length = header.length + payload.length + 1 := by
    have := congrArg List.length hx
    simp only [List.length_map, List.length_append, List.length_cons] at this
    omega
  have hcred := h.visible_credential (k := k) (by omega)
  have hfront : AllUnmarked (mask jwt jwtMarker false (marked false a)) := (allUnmarked_marked a).mask
  have hfrontChars : (mask jwt jwtMarker false (marked false a)).map Prod.fst = sub jwt.pattern jwtMarker 0 a := by simp
  rw [redactMarked, h.unmasked hx hk]
  constructor
  · intro hzero
    refine ⟨mask bearer bearerMarker false (mask jwt jwtMarker false (marked false a)), hfront.mask, ?_⟩
    rw [mask_append bearer_steady (by rw [hfrontChars, hchars]; exact hzero)]
    congr 1
    refine mask_eq_self fun s hs => bearer_eq_none_of_no_space fun y hy => ?_
    have hy' := hcred y (hchars ▸ (hs.map Prod.fst).subset hy)
    refine Bool.eq_false_iff.2 fun hspace => ?_
    rw [not_isCredentialChar_of_isSpace hspace] at hy'
    cases hy'
  · intro hover
    have hall : leftover bearer.pattern 0 (sub jwt.pattern jwtMarker 0 a)
        ((header ++ '.' :: (payload ++ '.' :: (signature ++ c))).take k) =
        ((header ++ '.' :: (payload ++ '.' :: (signature ++ c))).take k).length :=
      (leftover_cases (runs_to_end bearer_steady.pattern bearer_stops hcred) (Nat.zero_le _)).resolve_left hover
    rw [allUnmarked_mask_append hfront, hfrontChars, hchars, hall, ← hchars, List.length_map, List.drop_length,
      mask_nil]
    exact allUnmarked_nil

/-! ## What the record shows -/

/-- No eight characters in a row of the header, or of the payload, are shown. -/
def HidesJwt (rules : KeyRules String) (site : CutSite) (a header payload signature c : List Char) : Prop :=
  RunsShort (shownMarked rules site (markHeader a header payload signature c)) ∧
  RunsShort (shownMarked rules site (markPayload a header payload signature c))

/-- The field is named as personal data; or the cut leaves fewer than eight
characters of the JWT; or it leaves eight of its signature; or what it leaves
stands in the token of a bearer credential. -/
def HidesWhen (rules : KeyRules String) (site : CutSite) (a header payload signature c : List Char) : Prop :=
  isPiiKey rules site.key = true ∨ site.cut < a.length + 8 ∨
  a.length + header.length + payload.length + 10 ≤ site.cut ∨
  leftover bearer.pattern 0 (sub jwt.pattern jwtMarker 0 a) (visible site a header payload signature c) ≠ 0

omit [UnicodeData] [LawfulUnicode] in
theorem not_isSecretKey_site {site : CutSite} (h : site ∈ cutSites) : isSecretKey site.key = false := by
  simp only [cutSites, List.mem_cons, List.not_mem_nil, or_false] at h
  rcases h with rfl | rfl <;> decide +kernel

omit [LawfulUnicode] in
/-- What a site that is not named shows of a marking. -/
theorem shownMarked_eq {rules : KeyRules String} {site : CutSite} (hsite : site ∈ cutSites)
    (hpii : isPiiKey rules site.key = false) (t : List (Char × Bool)) :
    shownMarked rules site (marked false a ++ t) =
      redactMarked false (marked false (a.take site.cut) ++ t.take (site.cut - a.length)) := by
  rw [shownMarked, not_isSecretKey_site hsite, hpii, if_neg (by decide), if_neg (by decide), List.take_append, marked,
    ← List.map_take, List.length_map]
  rfl

/-- A site hides a marking of the JWT when the condition holds. -/
theorem FoundJwt.runsShort (h : FoundJwt a header payload signature c) {rules : KeyRules String} {site : CutSite}
    (hsite : site ∈ cutSites) (hwhen : HidesWhen rules site a header payload signature c) {x : List (Char × Bool)}
    (hx : x.map Prod.fst = header ++ '.' :: payload) :
    RunsShort (shownMarked rules site (marked false a ++ (x ++ marked false ('.' :: (signature ++ c))))) := by
  have hxlen : x.length = header.length + payload.length + 1 := by
    have := congrArg List.length hx
    simp only [List.length_map, List.length_append, List.length_cons] at this
    omega
  cases hpii : isPiiKey rules site.key with
  | true =>
    rw [shownMarked, not_isSecretKey_site hsite, hpii, if_neg (by decide), if_pos rfl]
    exact runsShort_of_allUnmarked (allUnmarked_marked _)
  | false =>
    rw [shownMarked_eq hsite hpii]
    rcases Nat.lt_or_ge site.cut a.length with hshort | hlong
    · -- the cut falls before the JWT
      have hnone : site.cut - a.length = 0 := by omega
      rw [hnone, List.take_zero, List.append_nil]
      exact runsShort_of_allUnmarked (allUnmarked_marked _).mask.mask
    rw [List.take_of_length_le hlong]
    rcases Nat.lt_or_ge (site.cut - a.length) (x.length + 9) with hcut | hcut
    · have hshown := h.shown hx hcut
      by_cases hover : leftover bearer.pattern 0 (sub jwt.pattern jwtMarker 0 a)
          ((header ++ '.' :: (payload ++ '.' :: (signature ++ c))).take (site.cut - a.length)) = 0
      · obtain ⟨f, hf, hshows⟩ := hshown.1 hover
        rw [hshows]
        refine runsShort_append hf ?_
        rcases hwhen with hp | hfew | hmany | hbearer
        · rw [hpii] at hp
          cases hp
        · rw [List.length_take]
          omega
        · omega
        · exact absurd hover hbearer
      · exact runsShort_of_allUnmarked (hshown.2 hover)
    · exact runsShort_of_allUnmarked (h.masked hx hcut)

/-- Cut between its first eight characters and the eighth of its signature, the
JWT's header shows. -/
theorem FoundJwt.header_shown (h : FoundJwt a header payload signature c) {rules : KeyRules String} {site : CutSite}
    (hsite : site ∈ cutSites) (hnot : ¬ HidesWhen rules site a header payload signature c) :
    marked true (header.take 8) <:+: shownMarked rules site (markHeader a header payload signature c) := by
  simp only [HidesWhen, not_or, Bool.not_eq_true, Nat.not_lt, Nat.not_le, Decidable.not_not] at hnot
  obtain ⟨hpii, hfew, hmany, hbearer⟩ := hnot
  have hx : (marked true header ++ marked false ('.' :: payload)).map Prod.fst = header ++ '.' :: payload := by simp
  have hcut : site.cut - a.length < (marked true header ++ marked false ('.' :: payload)).length + 9 := by
    simp only [marked, List.length_append, List.length_map, List.length_cons]
    omega
  obtain ⟨f, -, hshows⟩ := (h.shown hx hcut).1 hbearer
  rw [markHeader, shownMarked_eq hsite hpii, List.take_of_length_le (l := a) (by omega), hshows]
  have height : marked true (header.take 8) <+: (marked true header ++ marked false ('.' :: payload) ++
      marked false ('.' :: (signature ++ c))).take (site.cut - a.length) := by
    have hlong := h.header_long
    rw [marked, List.map_take, List.append_assoc, ← marked]
    refine List.prefix_take_iff.2 ⟨(List.take_prefix ..).trans (List.prefix_append ..), ?_⟩
    rw [List.length_take]
    omega
  obtain ⟨rest, hrest⟩ := height
  exact ⟨f, rest, by rw [← hrest, List.append_assoc]⟩

end Visible

/-- A record shows a text, so marked, at a site. -/
def Shows [UnicodeData] (rules : KeyRules String) (record : AuditRecord) (site : CutSite) (t : List (Char × Bool)) :
    Prop :=
  (site.key, .str (String.ofList ((shownMarked rules site t).map Prod.fst))) ∈ emitted rules record

/-- The record of a cut text shows the text, and hides its JWT under exactly
this condition. -/
theorem cut_hides_jwt_iff [UnicodeData] [LawfulUnicode] (rules : KeyRules String) (hrules : ∀ k, rules.text k = k)
    {site : CutSite} (hsite : site ∈ cutSites) {a header payload signature c : List Char}
    (h : FoundJwt a header payload signature c) {record : AuditRecord} {text : String}
    (htext : text.toList = a ++ (header ++ '.' :: (payload ++ '.' :: (signature ++ c))))
    (hfield : site.field text ∈ record.fields) :
    Shows rules record site (markHeader a header payload signature c) ∧
    Shows rules record site (markPayload a header payload signature c) ∧
    (HidesJwt rules site a header payload signature c ↔ HidesWhen rules site a header payload signature c) := by
  refine ⟨emitted_shows rules hrules hfield ?_, emitted_shows rules hrules hfield ?_, fun hhides => ?_, fun hwhen =>
    ⟨h.runsShort hsite hwhen (by simp), h.runsShort hsite hwhen (by simp)⟩⟩
  · rw [htext, markHeader]
    simp
  · rw [htext, markPayload]
    simp
  · refine Classical.byContradiction fun hnot => ?_
    have hshort := hhides.1 _ (h.header_shown hsite hnot) fun x hx => (mem_marked hx).2
    have hlong := h.header_long
    rw [marked, List.length_map, List.length_take] at hshort
    omega

/-- A short JWT, all of it before the cut. -/
theorem cut_hides_jwt_iff_short : let _ := asciiData
    let text := "bad token eyJhbGciOiJI.aaaaaaaa.bbbbbbbb!"
    let header := "eyJhbGciOiJI".toList
    let payload := List.replicate 8 'a'
    let signature := List.replicate 8 'b'
    FoundJwt "bad token ".toList header payload signature ['!'] ∧
    Shows plainRules (exchangeFailed (.int 401) text) exchangeFailedBody
      (markHeader "bad token ".toList header payload signature ['!']) ∧
    HidesJwt plainRules exchangeFailedBody "bad token ".toList header payload signature ['!'] := by
  intro _ text header payload signature
  have : LawfulUnicode := asciiData_lawful
  have h : FoundJwt "bad token ".toList header payload signature ['!'] := by
    refine ⟨⟨"hbGciOiJI".toList, by decide, by decide, List.all_eq_true.1 (by decide)⟩, ⟨by decide, ?_⟩,
      ⟨by decide, ?_⟩, fun x hx => ?_, by decide +kernel⟩
    · exact List.all_eq_true.1 (by decide)
    · exact List.all_eq_true.1 (by decide)
    · obtain rfl := Option.some.inj hx
      rfl
  have htext : text.toList = "bad token ".toList ++ (header ++ '.' :: (payload ++ '.' :: (signature ++ ['!']))) := by
    decide
  have hfield : exchangeFailedBody.field text ∈ (exchangeFailed (.int 401) text).fields := by
    simp [exchangeFailed]
  have hhides := cut_hides_jwt_iff plainRules (fun _ => rfl) (List.mem_cons_of_mem _ (List.mem_singleton.2 rfl)) h htext
    hfield
  exact ⟨h, hhides.1, hhides.2.2.2 (.inr (.inr (.inl (by decide))))⟩

/-- A JWT with a payload of 280 characters is cut in it, and its header is
recorded. -/
theorem not_cut_hides_jwt : let _ := asciiData
    let payload := List.replicate 280 'a'
    let text := String.ofList ("bad token eyJhbGciOiJSUzI1NiJ9.".toList ++ payload ++ ".c2lnbmF0dXJl".toList)
    FoundJwt "bad token ".toList "eyJhbGciOiJSUzI1NiJ9".toList payload "c2lnbmF0dXJl".toList [] ∧
    ¬ HidesJwt plainRules exchangeFailedBody "bad token ".toList "eyJhbGciOiJSUzI1NiJ9".toList payload
      "c2lnbmF0dXJl".toList [] ∧
    ∃ body, ("body", .str body) ∈ emitted plainRules (exchangeFailed (.int 401) text) ∧
      "eyJhbGci".toList <:+: body.toList := by
  intro _ payload text
  have : LawfulUnicode := asciiData_lawful
  have h : FoundJwt "bad token ".toList "eyJhbGciOiJSUzI1NiJ9".toList payload "c2lnbmF0dXJl".toList [] := by
    refine ⟨⟨"hbGciOiJSUzI1NiJ9".toList, by decide, by decide, List.all_eq_true.1 (by decide)⟩,
      ⟨by rw [List.length_replicate]; decide, fun y hy => ?_⟩, ⟨by decide, List.all_eq_true.1 (by decide)⟩, by simp,
      by decide +kernel⟩
    rw [List.eq_of_mem_replicate hy]
    rfl
  have hnot : ¬ HidesWhen plainRules exchangeFailedBody "bad token ".toList "eyJhbGciOiJSUzI1NiJ9".toList payload
      "c2lnbmF0dXJl".toList [] := by
    unfold HidesWhen visible
    decide +kernel
  have hshown := h.header_shown (List.mem_cons_of_mem _ (List.mem_singleton.2 rfl)) hnot
  have hfield : exchangeFailedBody.field text ∈ (exchangeFailed (.int 401) text).fields := by
    simp [exchangeFailed]
  have htext : (markHeader "bad token ".toList "eyJhbGciOiJSUzI1NiJ9".toList payload "c2lnbmF0dXJl".toList []).map
      Prod.fst = text.toList := by
    simp [markHeader, text]
  refine ⟨h, fun hhides => ?_, _, emitted_shows plainRules (fun _ => rfl) hfield htext, ?_⟩
  · have hshort := hhides.1 _ hshown fun x hx => (mem_marked hx).2
    rw [marked, List.length_map] at hshort
    exact absurd hshort (by decide)
  · simpa using hshown.map Prod.fst

end Redaction

end AgentPlatform
