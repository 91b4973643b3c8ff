import Mathlib
import WarpPlus.Semantics.Machine

/-! Replay and flood protection of `ConsumeMessageInitiation` under the device's
`RoutineHandshake` workers, one per CPU.

A call decides `replay` and `flood` under the handshake's read lock, releases it,
and only then takes the write lock to raise `lastTimestamp` and
`lastInitiationConsumption` and return the peer. A `Worker` is where one worker
stands in its call, and `Step` lets any worker take its next step at any reading of
the monotonic clock, so the runs of `Reachable` are all interleavings of the workers.

Every accepted initiation is newer than the handshake's timestamp when the run
started (`accepted_newer_than_start`), and a single worker accepts strictly
increasing timestamps (`one_worker_accepts_increasing`). Two workers holding copies
of one initiation can both check before either updates, and then both return the
peer (`replayed_initiation_accepted_twice`).
-/

set_option autoImplicit false

namespace WarpPlus.Device.Initiation

/-- `tai64n.Timestamp`, twelve bytes: seconds, then nanoseconds, big-endian. -/
abbrev Timestamp := List UInt8

/-- `Timestamp.After`: `bytes.Compare(t1[:], t2[:]) > 0`. -/
def after (t1 t2 : Timestamp) : Bool := decide (t2 < t1)

/-- `HandshakeInitationRate`: `time.Second / 50`. -/
def handshakeInitationRate : Int := 1000000000 / 50

/-- The fields of a peer's handshake that the replay and flood checks read. -/
structure Handshake where
  lastTimestamp : Timestamp
  lastInitiationConsumption : Int
  deriving DecidableEq, Repr

/-- The call up to `RUnlock`: the timestamp it goes on with, or `none` where it
returns nil. `opened` is the decrypted timestamp, `none` when `LookupPeer` or the
AEAD fails first. `time.Since` saturates, which never changes the comparison. -/
def check (handshake : Handshake) (now : Int) : Option Timestamp → Option Timestamp
  | none => none
  | some timestamp =>
    let replay := !after timestamp handshake.lastTimestamp
    let flood := decide (now - handshake.lastInitiationConsumption ≤ handshakeInitationRate)
    if replay then none
    else if flood then none
    else some timestamp

/-- The call under the write lock, with `time.Now()` read as `now`. -/
def Handshake.update (handshake : Handshake) (timestamp : Timestamp) (now : Int) : Handshake where
  lastTimestamp :=
    if after timestamp handshake.lastTimestamp then timestamp else handshake.lastTimestamp
  lastInitiationConsumption :=
    if handshake.lastInitiationConsumption < now then now else handshake.lastInitiationConsumption

inductive Worker where
  /-- Waiting on the handshake queue. -/
  | idle
  /-- Holding an initiation, before the read lock. -/
  | pending (opened : Option Timestamp)
  /-- Past the check, before the write lock. -/
  | approved (timestamp : Timestamp)
  deriving DecidableEq, Repr

structure System where
  handshake : Handshake
  workers : List Worker
  /-- The timestamps of the calls that returned the peer, in the order they returned. -/
  accepted : List Timestamp
  /-- The last reading of the monotonic clock, in nanoseconds. -/
  clock : Int

def System.init (handshake : Handshake) (cpus : Nat) (clock : Int) : System :=
  ⟨handshake, List.replicate cpus .idle, [], clock⟩

/-- One atomic step of worker `i`; the clock never runs back. -/
inductive Step : System → System → Prop where
  | receive {s : System} {i : Nat} (opened : Option Timestamp) :
      s.workers[i]? = some .idle →
      Step s { s with workers := s.workers.set i (.pending opened) }
  | check {s : System} {i : Nat} {opened : Option Timestamp} {now : Int} :
      s.workers[i]? = some (.pending opened) → s.clock ≤ now →
      Step s { s with
        workers := s.workers.set i ((check s.handshake now opened).elim .idle .approved)
        clock := now }
  | update {s : System} {i : Nat} {timestamp : Timestamp} {now : Int} :
      s.workers[i]? = some (.approved timestamp) → s.clock ≤ now →
      Step s { handshake := s.handshake.update timestamp now
               workers := s.workers.set i .idle
               accepted := s.accepted ++ [timestamp]
               clock := now }

/-- The states of `cpus` workers started on `handshake` at clock reading `clock`. -/
def Reachable (handshake : Handshake) (cpus : Nat) (clock : Int) : System → Prop :=
  Transition.Reachable (· = System.init handshake cpus clock) Step

@[simp] theorem after_iff {t1 t2 : Timestamp} : after t1 t2 = true ↔ t2 < t1 := by
  simp [after]

theorem check_eq_some {handshake : Handshake} {now : Int} {opened : Option Timestamp}
    {timestamp : Timestamp} :
    check handshake now opened = some timestamp ↔
      opened = some timestamp ∧ handshake.lastTimestamp < timestamp ∧
        handshakeInitationRate < now - handshake.lastInitiationConsumption := by
  cases opened with
  | none => simp [check]
  | some opened =>
    simp only [check]
    by_cases newer : handshake.lastTimestamp < opened
    · have fresh : after opened handshake.lastTimestamp = true := after_iff.mpr newer
      by_cases flood : now - handshake.lastInitiationConsumption ≤ handshakeInitationRate
      · simp [fresh, flood]
      · have quiet : handshakeInitationRate < now - handshake.lastInitiationConsumption :=
          Int.lt_of_not_ge flood
        simp only [fresh, flood, Bool.not_true, Bool.false_eq_true, if_false, decide_false,
          Option.some.injEq]
        exact ⟨fun same => ⟨same, same ▸ newer, quiet⟩, And.left⟩
    · have stale : after opened handshake.lastTimestamp = false := by simpa [after] using newer
      simp only [stale, Bool.not_false, if_true, reduceCtorEq, Option.some.injEq, false_iff, not_and]
      rintro rfl fresh
      exact absurd fresh newer

theorem lastTimestamp_le_update (handshake : Handshake) (timestamp : Timestamp) (now : Int) :
    handshake.lastTimestamp ≤ (handshake.update timestamp now).lastTimestamp := by
  by_cases newer : handshake.lastTimestamp < timestamp
  · simpa [Handshake.update, newer] using List.le_of_lt newer
  · simp [Handshake.update, newer]

theorem timestamp_le_update (handshake : Handshake) (timestamp : Timestamp) (now : Int) :
    timestamp ≤ (handshake.update timestamp now).lastTimestamp := by
  by_cases newer : handshake.lastTimestamp < timestamp
  · simp [Handshake.update, newer]
  · simpa [Handshake.update, newer] using List.not_lt.mp newer

theorem approved_of_set {workers : List Worker} {i : Nat} {worker : Worker} {timestamp : Timestamp}
    (member : .approved timestamp ∈ workers.set i worker) :
    .approved timestamp ∈ workers ∨ worker = .approved timestamp :=
  (List.mem_or_eq_of_mem_set member).imp id Eq.symm

theorem lt_of_checked {handshake : Handshake} {now : Int} {opened : Option Timestamp}
    {timestamp : Timestamp} (checked : (check handshake now opened).elim .idle .approved = Worker.approved timestamp) :
    handshake.lastTimestamp < timestamp := by
  cases passed : check handshake now opened with
  | none => simp [passed] at checked
  | some t =>
    simp only [passed, Option.elim_some, Worker.approved.injEq] at checked
    subst checked
    exact (check_eq_some.mp passed).2.1

theorem Step.lastTimestamp_le {s next : System} (step : Step s next) :
    s.handshake.lastTimestamp ≤ next.handshake.lastTimestamp := by
  cases step with
  | receive => exact List.le_refl _
  | check => exact List.le_refl _
  | update => exact lastTimestamp_le_update _ _ _

theorem Step.length {s next : System} (step : Step s next) :
    next.workers.length = s.workers.length := by
  cases step <;> simp

theorem Step.approved_mem {s next : System} (step : Step s next) {t : Timestamp}
    (member : .approved t ∈ next.workers) : .approved t ∈ s.workers ∨ s.handshake.lastTimestamp < t := by
  cases step with
  | receive => exact (approved_of_set member).imp_right fun new => by cases new
  | check => exact (approved_of_set member).imp_right lt_of_checked
  | update => exact (approved_of_set member).imp_right fun new => by cases new

theorem Step.accepted_mem {s next : System} (step : Step s next) {a : Timestamp}
    (member : a ∈ next.accepted) : a ∈ s.accepted ∨ .approved a ∈ s.workers := by
  cases step with
  | receive => exact .inl member
  | check => exact .inl member
  | update current =>
    rcases List.mem_append.mp member with old | new
    · exact .inl old
    · rw [List.mem_singleton.mp new]
      exact .inr (List.mem_of_getElem? current)

section Fresh

variable (start : Timestamp)

/-- What holds under any interleaving: the handshake's timestamp never falls below
`start`, and every approved or accepted timestamp is newer than `start`. -/
structure Fresh (s : System) : Prop where
  raised : start ≤ s.handshake.lastTimestamp
  accepted : ∀ a ∈ s.accepted, start < a
  approved : ∀ t, .approved t ∈ s.workers → start < t

theorem Fresh.step {s next : System} (fresh : Fresh start s) (step : Step s next) :
    Fresh start next where
  raised := List.le_trans fresh.raised step.lastTimestamp_le
  accepted a member := (step.accepted_mem member).elim (fresh.accepted a) (fresh.approved a)
  approved t member :=
    (step.approved_mem member).elim (fresh.approved t) (List.lt_of_le_of_lt fresh.raised)

end Fresh

/-- Under any interleaving of any number of workers, every accepted initiation is
newer than the handshake's timestamp when the run started. -/
theorem accepted_newer_than_start {handshake : Handshake} {cpus : Nat} {clock : Int} {s : System}
    (reachable : Reachable handshake cpus clock s) : ∀ a ∈ s.accepted, handshake.lastTimestamp < a :=
  (reachable.invariant (Fresh handshake.lastTimestamp)
    (fun state start => by
      subst start
      exact ⟨List.le_refl _, by simp [System.init], by simp [System.init]⟩)
    (fun _ _ fresh step => fresh.step _ step)).accepted

theorem set_of_length_one {workers : List Worker} {i : Nat} {worker replaced : Worker}
    (single : workers.length = 1) (current : workers[i]? = some worker) :
    workers.set i replaced = [replaced] := by
  obtain ⟨only, rfl⟩ := List.length_eq_one_iff.mp single
  cases i with
  | zero => rfl
  | succ i => simp at current

/-- One worker: the timestamps it returned with increase and are no newer than the
handshake's, and an approved timestamp is newer than the handshake's. -/
structure Serial (s : System) : Prop where
  single : s.workers.length = 1
  increasing : s.accepted.Pairwise (· < ·)
  recorded : ∀ a ∈ s.accepted, a ≤ s.handshake.lastTimestamp
  approved : ∀ t, .approved t ∈ s.workers → s.handshake.lastTimestamp < t

theorem Serial.step {s next : System} (serial : Serial s) (step : Step s next) : Serial next := by
  have single : next.workers.length = 1 := step.length.trans serial.single
  have approved : ∀ t, .approved t ∈ next.workers → _ := fun t member => step.approved_mem (t := t) member
  cases step with
  | receive | check =>
    -- the handshake and the accepted timestamps are left as they were
    exact ⟨single, serial.increasing, serial.recorded,
      fun t member => (approved t member).elim (serial.approved t) id⟩
  | @update _ timestamp now current _ =>
    -- the update is the only worker's, so no other approved timestamp is left
    have newer := serial.approved timestamp (List.mem_of_getElem? current)
    refine ⟨single, ?_, fun a member => ?_, fun t member => ?_⟩
    · refine List.pairwise_append.mpr ⟨serial.increasing, List.pairwise_singleton _ _, ?_⟩
      intro a old b new
      rw [List.mem_singleton.mp new]
      exact List.lt_of_le_of_lt (serial.recorded a old) newer
    · rcases List.mem_append.mp member with old | new
      · exact List.le_trans (serial.recorded a old) (lastTimestamp_le_update _ _ _)
      · rw [List.mem_singleton.mp new]
        exact timestamp_le_update _ _ _
    · rw [set_of_length_one serial.single current] at member
      cases List.mem_singleton.mp member

/-- A device with one `RoutineHandshake` worker accepts strictly increasing
timestamps: every accepted initiation is newer than all accepted before it. -/
theorem one_worker_accepts_increasing {handshake : Handshake} {clock : Int} {s : System}
    (reachable : Reachable handshake 1 clock s) : s.accepted.Pairwise (· < ·) :=
  (reachable.invariant Serial
    (fun state start => by
      subst start
      exact ⟨rfl, .nil, by simp [System.init], by simp [System.init]⟩)
    (fun _ _ serial step => serial.step step)).increasing

/-- Under any interleaving of the workers every accepted initiation is newer than the
handshake's timestamp when the run started, and with one worker the accepted
timestamps strictly increase. -/
theorem accepted_initiations_newer {handshake : Handshake} {cpus : Nat} {clock : Int} {s : System}
    (reachable : Reachable handshake cpus clock s) :
    (∀ a ∈ s.accepted, handshake.lastTimestamp < a) ∧ (cpus = 1 → s.accepted.Pairwise (· < ·)) := by
  refine ⟨accepted_newer_than_start reachable, ?_⟩
  rintro rfl
  exact one_worker_accepts_increasing reachable

/-- One worker accepts two initiations a second apart, the second with the later
timestamp. -/
theorem accepted_initiations_newer_twoCalls :
    ∃ s, Reachable ⟨List.replicate 12 0, 0⟩ 1 0 s ∧
      s.accepted = [[64, 0, 0, 0, 101, 83, 241, 10, 0, 0, 0, 0], [64, 0, 0, 0, 101, 83, 241, 11, 0, 0, 0, 0]] ∧
      (∀ a ∈ s.accepted, (List.replicate 12 0 : Timestamp) < a) ∧ (1 = 1 → s.accepted.Pairwise (· < ·)) := by
  have start : Reachable ⟨List.replicate 12 0, 0⟩ 1 0 (System.init ⟨List.replicate 12 0, 0⟩ 1 0) := .init rfl
  -- the first initiation: taken, checked and recorded at one second
  have receivedFirst := start.step (Step.receive (i := 0) (some [64, 0, 0, 0, 101, 83, 241, 10, 0, 0, 0, 0]) rfl)
  have checkedFirst := receivedFirst.step (@Step.check _ 0 _ 1000000000 rfl (by decide))
  have updatedFirst := checkedFirst.step (@Step.update _ 0 [64, 0, 0, 0, 101, 83, 241, 10, 0, 0, 0, 0] 1000000000 (by decide) (by decide))
  -- the second, newer one at two seconds
  have receivedSecond := updatedFirst.step
    (Step.receive (i := 0) (some [64, 0, 0, 0, 101, 83, 241, 11, 0, 0, 0, 0]) (by decide))
  have checkedSecond := receivedSecond.step (@Step.check _ 0 (some [64, 0, 0, 0, 101, 83, 241, 11, 0, 0, 0, 0]) 2000000000
    (by decide) (by decide))
  have updatedSecond := checkedSecond.step (@Step.update _ 0 [64, 0, 0, 0, 101, 83, 241, 11, 0, 0, 0, 0] 2000000000
    (by decide) (by decide))
  exact ⟨_, updatedSecond, rfl, accepted_initiations_newer updatedSecond⟩

/-- Two workers holding copies of one initiation both pass the check before either
takes the write lock, and then both calls return the peer. -/
theorem replayed_initiation_accepted_twice {cpus : Nat} (several : 2 ≤ cpus) (handshake : Handshake)
    {clock checkedFirst checkedSecond updatedFirst updatedSecond : Int} (timestamp : Timestamp)
    (readings : clock ≤ checkedFirst ∧ checkedFirst ≤ checkedSecond ∧ checkedSecond ≤ updatedFirst ∧
      updatedFirst ≤ updatedSecond)
    (fresh : handshake.lastTimestamp < timestamp)
    (quiet : handshakeInitationRate < checkedFirst - handshake.lastInitiationConsumption) :
    ∃ s, Reachable handshake cpus clock s ∧ s.accepted = [timestamp, timestamp] ∧
      ¬ s.accepted.Pairwise (· < ·) := by
  obtain ⟨others, rfl⟩ : ∃ others, cpus = others + 2 := ⟨cpus - 2, by omega⟩
  obtain ⟨first, second, third, fourth⟩ := readings
  have passFirst : check handshake checkedFirst (some timestamp) = some timestamp :=
    check_eq_some.mpr ⟨rfl, fresh, quiet⟩
  have passSecond : check handshake checkedSecond (some timestamp) = some timestamp :=
    check_eq_some.mpr ⟨rfl, fresh, by omega⟩
  -- workers 0 and 1 take the copies and check them; neither check sees the other's update
  have start : Reachable handshake (others + 2) clock (System.init handshake (others + 2) clock) :=
    .init rfl
  have takenFirst := start.step (Step.receive (i := 0) (some timestamp) rfl)
  have takenSecond := takenFirst.step (Step.receive (i := 1) (some timestamp) rfl)
  have checkedBoth := (takenSecond.step (Step.check (i := 0) rfl first)).step
    (Step.check (i := 1) rfl second)
  have updatedFirstCall := checkedBoth.step
    (@Step.update _ 0 timestamp updatedFirst (by simp [System.init, passFirst]) third)
  have updatedBoth := updatedFirstCall.step
    (@Step.update _ 1 timestamp updatedSecond (by simp [System.init, passSecond]) fourth)
  refine ⟨_, updatedBoth, rfl, fun increasing => ?_⟩
  exact List.lt_irrefl timestamp (List.rel_of_pairwise_cons increasing List.mem_cons_self)

theorem replayed_initiation_accepted_twice_copies :
    2 ≤ 2 ∧ ((0 : Int) ≤ 1000000000 ∧ (1000000000 : Int) ≤ 1000000001 ∧
      (1000000001 : Int) ≤ 1000000002 ∧ (1000000002 : Int) ≤ 1000000003) ∧
    (List.replicate 12 0 : Timestamp) < [64, 0, 0, 0, 101, 83, 241, 10, 0, 0, 0, 0] ∧
    handshakeInitationRate < 1000000000 - 0 ∧
    ∃ s, Reachable ⟨List.replicate 12 0, 0⟩ 2 0 s ∧
      s.accepted = [[64, 0, 0, 0, 101, 83, 241, 10, 0, 0, 0, 0], [64, 0, 0, 0, 101, 83, 241, 10, 0, 0, 0, 0]] ∧
      ¬ s.accepted.Pairwise (· < ·) :=
  ⟨by decide, by decide, by decide, by decide,
    @replayed_initiation_accepted_twice 2 (by decide) ⟨List.replicate 12 0, 0⟩
      0 1000000000 1000000001 1000000002 1000000003
      [64, 0, 0, 0, 101, 83, 241, 10, 0, 0, 0, 0] (by decide) (by decide) (by decide)⟩

end WarpPlus.Device.Initiation
