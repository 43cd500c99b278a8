/-
The sandbox process and its snapshot file (`app/sandbox/app.py`,
`app/sandbox/persistence.py`), step by step.

A write request is served by a thread of its own: it runs the simulator, takes
a snapshot, replaces the file with it, and answers. Each of these is one step,
and the steps of the requests in flight come in any order. A restart drops what
is in flight and loads the file.

`acknowledged_durable`: what was answered is in the file, at every point of
every run in which no request replaces the file's snapshot by one that lacks
some of its records, and no identifier that is given out is a key of the
ledger.
-/
import AgentPlatform.SnapshotsFacts

namespace AgentPlatform

open Simulators

namespace Sandbox

/-! ## The process -/

/-- How far a write request has come. -/
inductive Phase where
  | written
  | captured (snap : Snapshot)
  | saved

/-- A write request in flight: what it will answer. -/
structure WriteInFlight where
  record : Record
  phase : Phase

structure Process where
  memory : State
  file : Option Json
  writes : Dict Nat WriteInFlight

inductive ProcessStep where
  | request (n : Nat) (op : Operation)
  | capture (n : Nat)
  | replace (n : Nat)
  | respond (n : Nat)
  | restart

/-- The operations whose routes end in `_persist()`. -/
def persists : Operation → Bool
  | .issueRefund .. | .draftReply .. => true
  | _ => false

namespace Process

/-- A request arrives. A read, or a write that is refused, is answered at once. -/
def request [UnicodeData] (n : Nat) (op : Operation) (p : Process) : Option (Except Exn Record) × Process :=
  match op.perform p.memory with
  | (.error e, s) => (some (.error e), { p with memory := s })
  | (.ok record, s) =>
    if persists op then (none, { p with memory := s, writes := p.writes.insert n ⟨record, .written⟩ })
    else (some (.ok record), { p with memory := s })

/-- `snapshot()` in `_persist()` -/
def capture (n : Nat) (p : Process) : Process :=
  match p.writes.get? n with
  | some ⟨record, .written⟩ => { p with writes := p.writes.insert n ⟨record, .captured (snapshot p.memory)⟩ }
  | _ => p

/-- `STATE.save(...)`, as its `os.replace` shows it. -/
def replace (n : Nat) (p : Process) : Process :=
  match p.writes.get? n with
  | some ⟨record, .captured snap⟩ =>
    { p with file := some snap.toJson, writes := p.writes.insert n ⟨record, .saved⟩ }
  | _ => p

def respond (n : Nat) (p : Process) : Option (Except Exn Record) × Process :=
  match p.writes.get? n with
  | some ⟨record, .saved⟩ => (some (.ok record), { p with writes := p.writes.erase n })
  | _ => (none, p)

/-- `_lifespan`: `restore(**STATE.load())` in a new process. -/
def restart (p : Process) : Process := ⟨restore (.load p.file), p.file, ∅⟩

end Process

/-- The sandbox on a volume that is empty at first. A request has a number no
other in flight has. -/
def process [UnicodeData] : Machine Process ProcessStep (Option (Except Exn Record)) where
  init := ⟨restore (.load none), none, ∅⟩
  step
    | .request n op, p => if p.writes.contains n then (none, p) else p.request n op
    | .capture n, p => (none, p.capture n)
    | .replace n, p => (none, p.replace n)
    | .respond n, p => p.respond n
    | .restart, p => (none, p.restart)

/-! ## What is durable -/

/-- The refund or draft is among the records. -/
def Recorded (record : Record) (snap : Snapshot) : Prop :=
  match record with
  | .refund r => r ∈ snap.refunds
  | .draft d => d ∈ snap.drafts
  | _ => True

/-- Every answered refund and draft is in what the file restores. -/
def Durable (h : List (Transition Process ProcessStep (Option (Except Exn Record)))) (p : Process) : Prop :=
  ∀ t ∈ h, ∀ record, t.output = some (.ok record) → Recorded record (snapshot (restore (.load p.file)))

/-- The second has all records of the first. -/
structure Within (a b : Snapshot) : Prop where
  refunds : ∀ r ∈ a.refunds, r ∈ b.refunds
  drafts : ∀ d ∈ a.drafts, d ∈ b.drafts

/-- A step that loses no record: a snapshot replaces the file's only if it has
all its records, and no identifier that is given out is a key of the ledger. -/
def KeepsRecords (t : Transition Process ProcessStep (Option (Except Exn Record))) : Prop :=
  match t.input with
  | .request n op => t.pre.writes.get? n = none → FreshId op t.pre.memory
  | .replace n => ∀ record snap, t.pre.writes.get? n = some ⟨record, .captured snap⟩ → Within (.load t.pre.file) snap
  | _ => True

/-! ## Growth -/

theorem Within.refl (snap : Snapshot) : Within snap snap := ⟨fun _ h => h, fun _ h => h⟩

theorem Within.trans {a b c : Snapshot} (hab : Within a b) (hbc : Within b c) : Within a c :=
  ⟨fun r hr => hbc.refunds r (hab.refunds r hr), fun d hd => hbc.drafts d (hab.drafts d hd)⟩

theorem Recorded.within {record : Record} {a b : Snapshot} (h : Recorded record a) (hab : Within a b) :
    Recorded record b := by
  cases record with
  | refund r => exact hab.refunds r h
  | draft d => exact hab.drafts d h
  | _ => trivial

/-- What a read answers is no record of its own. -/
theorem recorded_of_read [UnicodeData] {op : Operation} {s : State} {record : Record} (hop : persists op = false)
    (h : (op.perform s).1 = .ok record) (snap : Snapshot) : Recorded record snap := by
  cases op with
  | issueRefund | draftReply => cases hop
  | quoteRefund orderId tenant =>
    obtain ⟨q, -, rfl⟩ := map_ok h
    trivial
  | listRefunds tenant orderId =>
    cases h
    trivial
  | listDrafts tenant ticketId =>
    cases h
    trivial

/-- A refund leaves the records there were, and its own. -/
theorem issueRefund_within [UnicodeData] {s s' : State} {orderId : Json} {amount : F64} {tenant : Option String}
    {key : Option String} {r : Refund} (h : Simulators.issueRefund orderId amount tenant key s = .ok (r, s'))
    (hfree : FreshId (.issueRefund orderId amount tenant key) s) :
    Within (snapshot s) (snapshot s') ∧ r ∈ (snapshot s').refunds := by
  rcases issueRefund_cases h with ⟨k, -, -, hget, rfl⟩ | ⟨hmiss, ho, hpos, hr, hs'⟩
  · exact ⟨.refl _, Dict.mem_values.2 ⟨k, hget⟩⟩
  · have hkey : s.refunds.get? r.key = none := by
      refine key_free hfree hmiss ⟨ho, hpos⟩ ?_ ?_ <;> rw [hr]
    have hvalues : (snapshot s').refunds = s.refunds.values ++ [r] := by
      rw [← Dict.values_insert_of_none hkey, hs', Refund.key, hr]
      rfl
    have hdrafts : (snapshot s').drafts = s.drafts.values := by rw [hs']; rfl
    refine ⟨⟨fun w hw => ?_, fun d hd => ?_⟩, ?_⟩
    · rw [hvalues]
      exact List.mem_append_left _ hw
    · rw [hdrafts]
      exact hd
    · rw [hvalues]
      exact List.mem_append_right _ (List.mem_singleton.2 rfl)

/-- A draft likewise. -/
theorem draftReply_within [UnicodeData] {s s' : State} (hs : Restorable s) {ticketId body : Json}
    {tenant : Option String} {d : Draft} (h : Simulators.draftReply ticketId body tenant s = .ok (d, s')) :
    Within (snapshot s) (snapshot s') ∧ d ∈ (snapshot s').drafts := by
  obtain ⟨-, hd, hs'⟩ := draftReply_cases h
  have hid : s.drafts.get? d.id = none := by
    rw [hd]
    exact hs.draft_free
  have hvalues : (snapshot s').drafts = s.drafts.values ++ [d] := by
    rw [← Dict.values_insert_of_none hid, hs']
    rfl
  have hrefunds : (snapshot s').refunds = s.refunds.values := by rw [hs']; rfl
  refine ⟨⟨fun r hr => ?_, fun w hw => ?_⟩, ?_⟩
  · rw [hrefunds]
    exact hr
  · rw [hvalues]
    exact List.mem_append_left _ hw
  · rw [hvalues]
    exact List.mem_append_right _ (List.mem_singleton.2 rfl)

/-- An operation leaves the records there were, and what it answers. -/
theorem perform_within [UnicodeData] {s : State} (hs : Restorable s) {op : Operation} (hfree : FreshId op s) :
    Within (snapshot s) (snapshot (op.perform s).2) ∧
      ∀ record, (op.perform s).1 = .ok record → Recorded record (snapshot (op.perform s).2) := by
  cases op with
  | issueRefund orderId amount tenant key =>
    simp only [Operation.perform]
    cases h : Simulators.issueRefund orderId amount tenant key s with
    | error e => exact ⟨.refl _, fun record hr => by cases hr⟩
    | ok r =>
      obtain ⟨hgrows, hown⟩ := issueRefund_within h hfree
      refine ⟨hgrows, fun record hrecord => ?_⟩
      cases hrecord
      exact hown
  | draftReply ticketId body tenant =>
    simp only [Operation.perform]
    cases h : Simulators.draftReply ticketId body tenant s with
    | error e => exact ⟨.refl _, fun record hr => by cases hr⟩
    | ok d =>
      obtain ⟨hgrows, hown⟩ := draftReply_within hs h
      refine ⟨hgrows, fun record hrecord => ?_⟩
      cases hrecord
      exact hown
  | quoteRefund | listRefunds | listDrafts => exact ⟨.refl _, fun record hr => recorded_of_read rfl hr _⟩

/-! ## The invariant -/

/-- A snapshot that a restore gives back. -/
structure Kept (snap : Snapshot) : Prop where
  restorable : Restorable (restore snap)
  restored : snapshot (restore snap) = snap

theorem kept_snapshot {s : State} (h : Restorable s) : Kept (snapshot s) := by
  have heq : restore (snapshot s) = s := by rw [← restart_def, h.restart_eq]
  exact ⟨by rwa [heq], by rw [heq]⟩

/-- Where the record of a write in flight is: in the memory, in the snapshot it
took, in the file. -/
def InFlight (memory : State) (file : Option Json) (w : WriteInFlight) : Prop :=
  match w.phase with
  | .written => Recorded w.record (snapshot memory)
  | .captured snap => Recorded w.record snap ∧ Within snap (snapshot memory) ∧ Kept snap
  | .saved => Recorded w.record (.load file)

theorem InFlight.mono {s s' : State} {file file' : Option Json} {w : WriteInFlight} (h : InFlight s file w)
    (hs : Within (snapshot s) (snapshot s')) (hf : Within (.load file) (.load file')) : InFlight s' file' w := by
  rcases w with ⟨record, _ | snap | _⟩
  · exact Recorded.within h hs
  · exact ⟨h.1, h.2.1.trans hs, h.2.2⟩
  · exact Recorded.within h hf

structure Sound (h : List (Transition Process ProcessStep (Option (Except Exn Record)))) (p : Process) : Prop where
  memory : Restorable p.memory
  file : Kept (.load p.file)
  /-- the memory has what the file has -/
  behind : Within (.load p.file) (snapshot p.memory)
  inFlight : ∀ n w, p.writes.get? n = some w → InFlight p.memory p.file w
  answered : ∀ t ∈ h, ∀ record, t.output = some (.ok record) → Recorded record (.load p.file)

section Steps

variable [UnicodeData] {h : List (Transition Process ProcessStep (Option (Except Exn Record)))} {p : Process}

omit [UnicodeData] in
/-- What was answered, after one more step. -/
theorem answered_concat {t : Transition Process ProcessStep (Option (Except Exn Record))} {file file' : Option Json}
    (hold : ∀ t ∈ h, ∀ record, t.output = some (.ok record) → Recorded record (.load file))
    (hf : Within (.load file) (.load file'))
    (hnew : ∀ record, t.output = some (.ok record) → Recorded record (.load file')) :
    ∀ u ∈ h ++ [t], ∀ record, u.output = some (.ok record) → Recorded record (.load file') := by
  intro u hu record hrecord
  rcases List.mem_append.1 hu with hu | hu
  · exact (hold u hu record hrecord).within hf
  · rw [List.mem_singleton] at hu
    exact hnew record (hu ▸ hrecord)

theorem sound_request (hp : Sound h p) {n : Nat} {op : Operation}
    (hfree : p.writes.get? n = none → FreshId op p.memory) :
    Sound (h ++ [process.transition p (.request n op)]) (process.step (.request n op) p).2 := by
  by_cases hbusy : p.writes.contains n = true
  · have hstep : process.step (.request n op) p = (none, p) := if_pos hbusy
    rw [hstep]
    refine { hp with answered := answered_concat hp.answered (.refl _) fun record hrecord => ?_ }
    rw [Machine.transition_output, hstep] at hrecord
    cases hrecord
  have hstep : process.step (.request n op) p = p.request n op := if_neg hbusy
  rw [Dict.contains, Bool.not_eq_true, Option.isSome_eq_false_iff, Option.isNone_iff_eq_none] at hbusy
  obtain ⟨hgrows, hown⟩ := perform_within hp.memory (hfree hbusy)
  have hmemory := restorable_perform hp.memory op
  rw [hstep]
  unfold Process.request
  split
  · rename_i e s' he
    rw [he] at hgrows hmemory
    refine ⟨hmemory, hp.file, hp.behind.trans hgrows, fun m w hm => (hp.inFlight m w hm).mono hgrows (.refl _), ?_⟩
    refine answered_concat hp.answered (.refl _) fun record hrecord => ?_
    rw [Machine.transition_output, hstep, Process.request, he] at hrecord
    cases hrecord
  · rename_i record s' he
    rw [he] at hgrows hmemory hown
    split
    · rename_i hwrite
      refine ⟨hmemory, hp.file, hp.behind.trans hgrows, fun m w hm => ?_, ?_⟩
      · rcases Dict.get?_insert_cases hm with ⟨-, rfl⟩ | ⟨-, hm⟩
        · exact hown record rfl
        · exact (hp.inFlight m w hm).mono hgrows (.refl _)
      · refine answered_concat hp.answered (.refl _) fun record' hrecord => ?_
        simp only [Machine.transition_output, hstep, Process.request, he, hwrite, if_true] at hrecord
        cases hrecord
    · rename_i hread
      refine ⟨hmemory, hp.file, hp.behind.trans hgrows, fun m w hm => (hp.inFlight m w hm).mono hgrows (.refl _), ?_⟩
      refine answered_concat hp.answered (.refl _) fun record' hrecord => ?_
      simp only [Machine.transition_output, hstep, Process.request, he, hread, Bool.false_eq_true, if_false,
        Option.some.injEq, Except.ok.injEq] at hrecord
      subst hrecord
      exact recorded_of_read (by simpa using hread) (congrArg Prod.fst he) _

theorem sound_capture (hp : Sound h p) (n : Nat) :
    Sound (h ++ [process.transition p (.capture n)]) (p.capture n) := by
  have hanswered := answered_concat (t := process.transition p (.capture n)) hp.answered (.refl _)
    fun record hrecord => by cases hrecord
  unfold Process.capture
  split
  · rename_i record hw
    refine { hp with inFlight := fun m w hm => ?_, answered := hanswered }
    rcases Dict.get?_insert_cases hm with ⟨-, rfl⟩ | ⟨-, hm⟩
    · exact ⟨hp.inFlight n _ hw, .refl _, kept_snapshot hp.memory⟩
    · exact hp.inFlight m w hm
  · exact { hp with answered := hanswered }

theorem sound_replace (hp : Sound h p) {n : Nat}
    (hnewer : ∀ record snap, p.writes.get? n = some ⟨record, .captured snap⟩ → Within (.load p.file) snap) :
    Sound (h ++ [process.transition p (.replace n)]) (p.replace n) := by
  unfold Process.replace
  split
  · rename_i record snap hw
    have hload : Snapshot.load (some snap.toJson) = snap := Snapshot.load_toJson snap
    have hgrows : Within (.load p.file) (.load (some snap.toJson)) := by
      rw [hload]
      exact hnewer record snap hw
    obtain ⟨hrecord, hwithin, hkept⟩ := hp.inFlight n _ hw
    refine ⟨hp.memory, ?_, ?_, fun m w hm => ?_, ?_⟩
    · rwa [hload]
    · rwa [hload]
    · rcases Dict.get?_insert_cases hm with ⟨-, rfl⟩ | ⟨-, hm⟩
      · rwa [InFlight, hload]
      · exact (hp.inFlight m w hm).mono (.refl _) hgrows
    · exact answered_concat hp.answered hgrows fun record hrecord => by cases hrecord
  · exact { hp with answered := answered_concat hp.answered (.refl _) fun record hrecord => by cases hrecord }

theorem sound_respond (hp : Sound h p) (n : Nat) :
    Sound (h ++ [process.transition p (.respond n)]) (p.respond n).2 := by
  unfold Process.respond
  split
  · rename_i record hw
    refine { hp with inFlight := fun m w hm => ?_, answered := ?_ }
    · rw [Dict.get?_erase] at hm
      split at hm
      · cases hm
      · exact hp.inFlight m w hm
    · refine answered_concat hp.answered (.refl _) fun record' hrecord => ?_
      simp only [Machine.transition, process, Process.respond, hw, Option.some.injEq, Except.ok.injEq] at hrecord
      exact hrecord ▸ hp.inFlight n _ hw
  · rename_i hother
    refine { hp with answered := answered_concat hp.answered (.refl _) fun record hrecord => ?_ }
    simp only [Machine.transition, process, Process.respond] at hrecord
    cases hrecord

theorem sound_restart (hp : Sound h p) : Sound (h ++ [process.transition p .restart]) p.restart where
  memory := hp.file.restorable
  file := hp.file
  behind := by
    show Within _ (snapshot (restore (.load p.file)))
    rw [hp.file.restored]
    exact .refl _
  inFlight n w hw := by cases hw
  answered := answered_concat hp.answered (.refl _) fun record hrecord => by cases hrecord

end Steps

/-- **Acknowledged writes are durable**: at the end of every run, and so at
every point, in which no request replaces the file's snapshot by one that lacks
some of its records, and no identifier that is given out is a key. -/
theorem acknowledged_durable [UnicodeData] (steps : List ProcessStep) (h : ∀ t ∈ process.run steps, KeepsRecords t) :
    Durable (process.run steps) (process.final steps) := by
  have hinit : Sound [] process.init := by
    have hkept : Kept (.load none) := kept_snapshot restorable_initial
    refine ⟨hkept.restorable, hkept, ?_, fun n w hw => (by cases hw), fun t ht => absurd ht List.not_mem_nil⟩
    show Within _ (snapshot (restore (.load none)))
    rw [hkept.restored]
    exact .refl _
  have hsound := Machine.history_rule (m := process) (G := KeepsRecords) (P := Sound) hinit
    (fun h p i hp hg => ?_) steps h
  · intro t ht record hrecord
    rw [hsound.file.restored]
    exact hsound.answered t ht record hrecord
  · cases i with
    | request n op => exact sound_request hp hg
    | capture n => exact sound_capture hp n
    | replace n => exact sound_replace hp hg
    | respond n => exact sound_respond hp n
    | restart => exact sound_restart hp

/-- A write that is performed is in flight. -/
theorem step_request [UnicodeData] {p : Process} {n : Nat} {op : Operation} {record : Record} {s : State}
    (hfree : p.writes.contains n = false) (hop : persists op = true) (h : op.perform p.memory = (.ok record, s)) :
    process.step (.request n op) p =
      (none, { p with memory := s, writes := p.writes.insert n ⟨record, .written⟩ }) := by
  have hstep : process.step (.request n op) p = p.request n op := if_neg (by rw [hfree]; exact Bool.false_ne_true)
  rw [hstep, Process.request, h]
  exact if_pos hop

theorem perform_of_isOk [UnicodeData] (op : Operation) (s : State) (h : (op.perform s).1.isOk = true) :
    ∃ record, op.perform s = (.ok record, (op.perform s).2) := by
  rcases hs : op.perform s with ⟨e | record, s'⟩
  · rw [hs] at h
    cases h
  · exact ⟨record, rfl⟩

def plainRefund : Operation := .issueRefund (.str "o-1001") (F64.ofInt 5) (some "acme") none

def keyedRefund : Operation := .issueRefund (.str "o-1002") (F64.ofInt 7) (some "acme") (some "k-1")

/-- Two refunds at once; the second takes its snapshot when the first is in the
file, and is answered before it. Then a restart. -/
def twoRefunds : List ProcessStep :=
  [.request 0 plainRefund, .capture 0, .request 1 keyedRefund, .replace 0, .capture 1, .replace 1, .respond 1,
    .respond 0, .restart]

theorem twoRefunds_durable :
    Durable ((@process asciiData).run twoRefunds) ((@process asciiData).final twoRefunds) := by
  let _ := asciiData
  have hplain : FreshId plainRefund process.init.memory := fun _ _ _ _ _ _ _ => rfl
  have hkeyed (s : State) : FreshId keyedRefund s := fun _ _ _ _ h hnone _ => by cases h; cases hnone
  obtain ⟨first, hfirst⟩ := perform_of_isOk plainRefund process.init.memory (by decide +kernel)
  obtain ⟨second, hsecond⟩ := perform_of_isOk keyedRefund (plainRefund.perform process.init.memory).2
    (by decide +kernel)
  have hrestorable : Restorable (plainRefund.perform process.init.memory).2 :=
    restorable_perform (kept_snapshot restorable_initial).restorable plainRefund
  have hwithin := (perform_within hrestorable (hkeyed _)).1
  generalize (plainRefund.perform process.init.memory).2 = s at hfirst hsecond hwithin
  generalize (keyedRefund.perform s).2 = s' at hsecond hwithin
  refine acknowledged_durable twoRefunds ?_
  have hbefore : (process.step (.capture 0) (process.step (.request 0 plainRefund) process.init).2).2 =
      ⟨s, none, (∅ : Dict Nat WriteInFlight).insert 0 ⟨first, .captured (snapshot s)⟩⟩ := by
    rw [step_request rfl rfl hfirst]
    rfl
  have hboth := step_request (n := 1)
    (p := ⟨s, none, (∅ : Dict Nat WriteInFlight).insert 0 ⟨first, .captured (snapshot s)⟩⟩) rfl rfl hsecond
  simp only [twoRefunds, Machine.run, Machine.runFrom, List.forall_mem_cons, hbefore, hboth]
  refine ⟨fun _ => hplain, trivial, fun _ => hkeyed _, fun _ _ _ => ?_, trivial, fun record snap hw => ?_,
    trivial, trivial, trivial, fun _ h => absurd h List.not_mem_nil⟩
  · exact ⟨fun _ h => absurd h List.not_mem_nil, fun _ h => absurd h List.not_mem_nil⟩
  · cases hw
    show Within (.load (some (snapshot s).toJson)) (snapshot s')
    rw [Snapshot.load_toJson]
    exact hwithin

/-- Two refunds at once; the first takes its snapshot before the second is
issued, and installs it after the second is answered. -/
def staleSnapshot : List ProcessStep :=
  [.request 0 (.issueRefund (.str "o-1001") (F64.ofInt 5) (some "acme") none), .capture 0,
    .request 1 (.issueRefund (.str "o-1002") (F64.ofInt 7) (some "acme") none), .capture 1, .replace 1, .respond 1,
    .replace 0]

/-- The identifier of an answered refund. -/
def answeredId (a : Option (Except Exn Record)) : Option String :=
  match a with
  | some (.ok (.refund r)) => some r.id
  | _ => none

theorem answeredId_eq_some {a : Option (Except Exn Record)} {id : String} (h : answeredId a = some id) :
    ∃ r : Refund, a = some (.ok (.refund r)) ∧ r.id = id := by
  unfold answeredId at h
  split at h
  · exact ⟨_, rfl, Option.some.inj h⟩
  · cases h

/-- The second refund is answered, and the file no longer has it. -/
theorem staleSnapshot_not_durable :
    ¬ Durable ((@process asciiData).run staleSnapshot) ((@process asciiData).final staleSnapshot) := by
  intro h
  let _ := asciiData
  have hanswered : "r-0002" ∈ (process.run staleSnapshot).filterMap fun t => answeredId t.output := by decide +kernel
  obtain ⟨t, ht, hid⟩ := List.mem_filterMap.1 hanswered
  obtain ⟨r, hr, hid⟩ := answeredId_eq_some hid
  have hkept := List.mem_map_of_mem (f := Refund.id) (h t ht _ hr)
  rw [hid] at hkept
  revert hkept
  decide +kernel

end Sandbox

end AgentPlatform
