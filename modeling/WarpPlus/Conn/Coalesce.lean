import Mathlib
import WarpPlus.Semantics.Segments

/-! Sending a batch of datagrams with UDP segmentation offload: `coalesceMessages`
of `conn/bind_std.go`.

A byte slice is its bytes up to its length, and its capacity. `setGSO` is the
function the caller passes (`setGSOSize` on Linux); `segmentOf` reads back the
segment size a control buffer records. The results below need of the two only that
every message's control buffer is `Ready` once `setSrcControl` has written it:
it records no size yet, and `setGSO` records any size in it (for `setGSOSize` this
is a matter of capacity, `WarpPlus.Conn.Control`). `setSrcControl` is the Linux one. The array of messages is long
enough for `bufs`, as `Send` never passes more than `IdealBatchSize` buffers.

`Coalesced` is the loop's invariant: the messages before `base` are closed and
carry their datagrams, and `msgs[base]` holds whole segments of `gsoSize` bytes
and then at most one shorter one, which ends the batch.
-/

set_option autoImplicit false

namespace WarpPlus.Conn

open Segmentation

structure Buffer where
  bytes : List UInt8
  capacity : Nat
  deriving DecidableEq, Repr, Inhabited

/-- The fields of `ipv6.Message` that the batching code reads and writes:
`Buffers[0]`, `OOB`, `Addr`, `N` and `NN`. -/
structure Message (A : Type) where
  buffer : Buffer
  oob : Buffer
  addr : Option A
  n : Nat
  nn : Nat
  deriving DecidableEq, Repr

instance {A : Type} : Inhabited (Message A) := ⟨⟨default, default, none, 0, 0⟩⟩

def maxIPv4PayloadLen : Nat := 2 ^ 16 - 1 - 20 - 8

def maxIPv6PayloadLen : Nat := 2 ^ 16 - 1 - 8

def udpSegmentMaxDatagrams : Nat := 64

/-- The endpoint as the batching code reads it: the family of its destination and
its sticky source control bytes. -/
structure StdNetEndpoint where
  dstIs6 : Bool
  src : List UInt8

/-- `setSrcControl` (Linux): the control data becomes the source bytes, unless
they do not fit in its capacity. -/
def setSrcControl (control : Buffer) (ep : StdNetEndpoint) : Buffer :=
  if control.capacity < ep.src.length then control else { control with bytes := ep.src }

variable {A : Type}

/-- The locals of the loop of `coalesceMessages`; `count` is `base + 1`. -/
structure Coalescing (A : Type) where
  count : Nat
  gsoSize : Nat
  dgramCnt : Nat
  endBatch : Bool
  msgs : List (Message A)

/-- `msgs[base]`. -/
def Coalescing.base (st : Coalescing A) : Message A := st.msgs.getD (st.count - 1) default

/-- The five conditions under which `buf` joins `msgs[base]`. -/
def Coalescing.accepts (st : Coalescing A) (maxPayloadLen : Nat) (buf : Buffer) : Bool :=
  let msgLen := buf.bytes.length
  let baseLenBefore := st.base.buffer.bytes.length
  let freeBaseCap := st.base.buffer.capacity - baseLenBefore
  decide (msgLen + baseLenBefore ≤ maxPayloadLen) && decide (msgLen ≤ st.gsoSize) &&
    decide (msgLen ≤ freeBaseCap) && decide (st.dgramCnt < udpSegmentMaxDatagrams) && !st.endBatch

/-- `buf` appended to `msgs[base]`, with the segment size set when `buf` is the last. -/
def Coalescing.append (setGSO : Buffer → UInt16 → Buffer) (isLast : Bool) (st : Coalescing A)
    (buf : Buffer) : Coalescing A :=
  let grown := { st.base with buffer := { st.base.buffer with bytes := st.base.buffer.bytes ++ buf.bytes } }
  let grown := if isLast then { grown with oob := setGSO grown.oob st.gsoSize.toUInt16 } else grown
  { st with
    msgs := st.msgs.set (st.count - 1) grown
    dgramCnt := st.dgramCnt + 1
    endBatch := st.endBatch || decide (buf.bytes.length < st.gsoSize) }

/-- `msgs[base]` closed, with its segment size set when it holds several datagrams,
and a new batch started with `buf`. -/
def Coalescing.startBatch (setGSO : Buffer → UInt16 → Buffer) (addr : A) (ep : StdNetEndpoint)
    (st : Coalescing A) (buf : Buffer) : Coalescing A :=
  let msgs := if 1 < st.dgramCnt then
      st.msgs.set (st.count - 1) { st.base with oob := setGSO st.base.oob st.gsoSize.toUInt16 }
    else st.msgs
  let next := msgs.getD st.count default
  { count := st.count + 1
    gsoSize := buf.bytes.length
    dgramCnt := 1
    endBatch := false
    msgs := msgs.set st.count { next with
      oob := setSrcControl next.oob ep, buffer := buf, addr := some addr } }

/-- One iteration of the loop, for `buf` at index `i`. -/
def Coalescing.step (setGSO : Buffer → UInt16 → Buffer) (addr : A) (ep : StdNetEndpoint)
    (maxPayloadLen last : Nat) (st : Coalescing A) (i : Nat) (buf : Buffer) : Coalescing A :=
  if 0 < i ∧ st.accepts maxPayloadLen buf = true then st.append setGSO (decide (i = last)) buf
  else st.startBatch setGSO addr ep buf

def coalesceLoop (setGSO : Buffer → UInt16 → Buffer) (addr : A) (ep : StdNetEndpoint)
    (maxPayloadLen last : Nat) : Nat → List Buffer → Coalescing A → Coalescing A
  | _, [], st => st
  | i, buf :: rest, st =>
    coalesceLoop setGSO addr ep maxPayloadLen last (i + 1) rest
      (st.step setGSO addr ep maxPayloadLen last i buf)

/-- `coalesceMessages`: the number of messages to send, and the array as it leaves it. -/
def coalesceMessages (addr : A) (ep : StdNetEndpoint) (bufs : List Buffer) (msgs : List (Message A))
    (setGSO : Buffer → UInt16 → Buffer) : Nat × List (Message A) :=
  let maxPayloadLen := if ep.dstIs6 then maxIPv6PayloadLen else maxIPv4PayloadLen
  let st := coalesceLoop setGSO addr ep maxPayloadLen (bufs.length - 1) 0 bufs ⟨0, 0, 0, false, msgs⟩
  (st.count, st.msgs)

/-- The datagrams a message carries: its payload cut at the segment size its control
data records. -/
def Message.datagrams (segmentOf : List UInt8 → Option Nat) (m : Message A) : List (List UInt8) :=
  segments ((segmentOf m.oob.bytes).getD 0) m.buffer.bytes

/-- A control buffer a batch can start in: it records no segment size, and `setGSO`
records any size in it. -/
def Ready (setGSO : Buffer → UInt16 → Buffer) (segmentOf : List UInt8 → Option Nat) (control : Buffer) : Prop :=
  segmentOf control.bytes = none ∧ ∀ size, segmentOf (setGSO control size).bytes = some size.toNat

/-- A payload with a segment size that segmentation offload can split: not empty,
a size of zero or at most the payload, and at most `udpSegmentMaxDatagrams` segments. -/
structure Segmented (payload : List UInt8) (size : Nat) : Prop where
  nonempty : payload ≠ []
  size_le : size ≤ payload.length
  few : (segments size payload).length ≤ udpSegmentMaxDatagrams

instance (payload : List UInt8) (size : Nat) : Decidable (Segmented payload size) :=
  decidable_of_iff (payload ≠ [] ∧ size ≤ payload.length ∧
      (segments size payload).length ≤ udpSegmentMaxDatagrams)
    ⟨fun ⟨nonempty, size_le, few⟩ => ⟨nonempty, size_le, few⟩,
      fun ⟨nonempty, size_le, few⟩ => ⟨nonempty, size_le, few⟩⟩

/-- The messages before `count` carry `bufs`, each in a form the receiver can split. -/
structure Finished (segmentOf : List UInt8 → Option Nat) (count : Nat) (msgs : List (Message A))
    (bufs : List Buffer) : Prop where
  carried : (msgs.take count).flatMap (Message.datagrams segmentOf) = bufs.map Buffer.bytes
  segmented : ∀ m ∈ msgs.take count, Segmented m.buffer.bytes ((segmentOf m.oob.bytes).getD 0)

/-- The invariant of the loop after the buffers `done`, from the array `msgs₀`. -/
structure Coalesced (setGSO : Buffer → UInt16 → Buffer) (segmentOf : List UInt8 → Option Nat) (maxPayloadLen : Nat)
    (msgs₀ : List (Message A)) (done : List Buffer) (st : Coalescing A) : Prop where
  length_msgs : st.msgs.length = msgs₀.length
  count_pos : 0 < st.count
  count_le : st.count ≤ done.length
  untouched : ∀ k, st.count ≤ k → st.msgs.getD k default = msgs₀.getD k default
  closed : ∀ m ∈ st.msgs.take (st.count - 1), Segmented m.buffer.bytes ((segmentOf m.oob.bytes).getD 0)
  carried : (st.msgs.take (st.count - 1)).flatMap (Message.datagrams segmentOf) ++
    segments st.gsoSize st.base.buffer.bytes = done.map Buffer.bytes
  base_ready : Ready setGSO segmentOf st.base.oob
  gsoSize_pos : 0 < st.gsoSize
  dgramCnt_pos : 0 < st.dgramCnt
  dgramCnt_le : st.dgramCnt ≤ udpSegmentMaxDatagrams
  above : st.gsoSize * (st.dgramCnt - 1) < st.base.buffer.bytes.length
  below : st.base.buffer.bytes.length ≤ st.gsoSize * st.dgramCnt
  whole : st.endBatch = false → st.base.buffer.bytes.length = st.gsoSize * st.dgramCnt
  payload_le : 1 < st.dgramCnt → st.base.buffer.bytes.length ≤ maxPayloadLen

theorem take_count_eq (msgs : List (Message A)) {count : Nat} (pos : 0 < count)
    (le : count ≤ msgs.length) :
    msgs.take count = msgs.take (count - 1) ++ [msgs.getD (count - 1) default] := by
  obtain ⟨k, rfl⟩ : ∃ k, count = k + 1 := ⟨count - 1, by omega⟩
  rw [List.take_add_one, List.getD_eq_getElem _ _ (by omega), List.getElem?_eq_getElem (by omega)]
  rfl

theorem length_segments_batch {size count : Nat} {payload : List UInt8} (pos : 0 < size)
    (above : size * (count - 1) < payload.length) (below : payload.length ≤ size * count) :
    (segments size payload).length = count := by
  rw [length_segments pos]
  rcases count with _ | count
  · simp at below
    simp [below] at above
  · simp only [Nat.add_sub_cancel] at above
    rw [Nat.mul_add, Nat.mul_one] at below
    apply Nat.div_eq_of_lt_le
    · rw [Nat.add_mul, Nat.one_mul, Nat.mul_comm]
      omega
    · rw [Nat.add_mul, Nat.add_mul, Nat.one_mul, Nat.mul_comm]
      omega

theorem toNat_toUInt16 {size : Nat} (small : size < 2 ^ 16) : size.toUInt16.toNat = size := by
  rw [Nat.toUInt16, UInt16.toNat_ofNat', Nat.mod_eq_of_lt small]

section invariant

variable {setGSO : Buffer → UInt16 → Buffer} {segmentOf : List UInt8 → Option Nat}
  (addr : A) (ep : StdNetEndpoint) {maxPayloadLen : Nat} {msgs₀ : List (Message A)}
  {done : List Buffer} {st : Coalescing A} {buf : Buffer}

theorem Coalescing.accepts_iff :
    st.accepts maxPayloadLen buf = true ↔
      buf.bytes.length + st.base.buffer.bytes.length ≤ maxPayloadLen ∧ buf.bytes.length ≤ st.gsoSize ∧
      buf.bytes.length ≤ st.base.buffer.capacity - st.base.buffer.bytes.length ∧
      st.dgramCnt < udpSegmentMaxDatagrams ∧ st.endBatch = false := by
  simp [Coalescing.accepts, and_assoc]

@[simp] theorem Coalescing.append_count (isLast : Bool) :
    (st.append setGSO isLast buf).count = st.count := rfl

@[simp] theorem Coalescing.append_gsoSize (isLast : Bool) :
    (st.append setGSO isLast buf).gsoSize = st.gsoSize := rfl

@[simp] theorem Coalescing.append_dgramCnt (isLast : Bool) :
    (st.append setGSO isLast buf).dgramCnt = st.dgramCnt + 1 := rfl

@[simp] theorem Coalescing.startBatch_count : (st.startBatch setGSO addr ep buf).count = st.count + 1 :=
  rfl

@[simp] theorem Coalescing.startBatch_gsoSize :
    (st.startBatch setGSO addr ep buf).gsoSize = buf.bytes.length := rfl

@[simp] theorem Coalescing.startBatch_dgramCnt : (st.startBatch setGSO addr ep buf).dgramCnt = 1 :=
  rfl

theorem datagrams_setGSO {oob : Buffer}
    (records : ∀ size, segmentOf (setGSO oob size).bytes = some size.toNat)
    (m : Message A) (size : Nat) (small : size < 2 ^ 16) :
    Message.datagrams segmentOf { m with oob := setGSO oob size.toUInt16 } =
      segments size m.buffer.bytes := by
  simp only [Message.datagrams, records, Option.getD_some, toNat_toUInt16 small]

/-- `msgs[base]` as `startBatch` leaves it. -/
def Coalescing.closedBase (setGSO : Buffer → UInt16 → Buffer) (st : Coalescing A) : Message A :=
  if 1 < st.dgramCnt then { st.base with oob := setGSO st.base.oob st.gsoSize.toUInt16 } else st.base

theorem Coalesced.close (inv : Coalesced setGSO segmentOf maxPayloadLen msgs₀ done st)
    (bound : maxPayloadLen < 2 ^ 16) :
    (st.closedBase setGSO).datagrams segmentOf = segments st.gsoSize st.base.buffer.bytes ∧
      Segmented (st.closedBase setGSO).buffer.bytes
        ((segmentOf (st.closedBase setGSO).oob.bytes).getD 0) := by
  have count := length_segments_batch inv.gsoSize_pos inv.above inv.below
  have pos := inv.gsoSize_pos
  have records := inv.base_ready.2
  unfold Coalescing.closedBase
  split
  · next several =>
    have payload := inv.payload_le several
    have first : st.gsoSize ≤ st.base.buffer.bytes.length := by
      have := inv.above
      have : st.gsoSize ≤ st.gsoSize * (st.dgramCnt - 1) := Nat.le_mul_of_pos_right _ (by omega)
      omega
    have small : st.gsoSize < 2 ^ 16 := by omega
    dsimp only
    refine ⟨datagrams_setGSO records _ st.gsoSize small, ⟨?_, ?_, ?_⟩⟩
    · exact List.ne_nil_of_length_pos (by omega)
    · rw [records, Option.getD_some, toNat_toUInt16 (by omega)]
      exact first
    · rw [records, Option.getD_some, toNat_toUInt16 (by omega), count]
      exact inv.dgramCnt_le
  · next single =>
    have one : st.dgramCnt = 1 := by have := inv.dgramCnt_pos; omega
    have nonempty : st.base.buffer.bytes ≠ [] := List.ne_nil_of_length_pos (by have := inv.above; omega)
    rw [Message.datagrams, inv.base_ready.1, Option.getD_none, segments_zero,
      segments_of_length_le inv.gsoSize_pos nonempty (by have := inv.below; rw [one] at this; omega)]
    refine ⟨rfl, ⟨nonempty, Nat.zero_le _, ?_⟩⟩
    simp [udpSegmentMaxDatagrams]

theorem Coalesced.base_lt (inv : Coalesced setGSO segmentOf maxPayloadLen msgs₀ done st)
    (longEnough : done.length < msgs₀.length) : st.count < st.msgs.length := by
  have := inv.count_le
  rw [inv.length_msgs]
  omega

theorem Coalesced.segments_append (inv : Coalesced setGSO segmentOf maxPayloadLen msgs₀ done st)
    (accepted : st.accepts maxPayloadLen buf = true) (nonempty : buf.bytes ≠ []) :
    segments st.gsoSize (st.base.buffer.bytes ++ buf.bytes) =
      segments st.gsoSize st.base.buffer.bytes ++ [buf.bytes] := by
  obtain ⟨-, fitsSize, -, -, notEnded⟩ := Coalescing.accepts_iff.mp accepted
  rw [Segmentation.segments_append inv.gsoSize_pos _ ⟨st.dgramCnt, inv.whole notEnded⟩,
    segments_of_length_le inv.gsoSize_pos nonempty fitsSize]

theorem Coalesced.append (inv : Coalesced setGSO segmentOf maxPayloadLen msgs₀ done st)
    (longEnough : done.length < msgs₀.length) (accepted : st.accepts maxPayloadLen buf = true)
    (nonempty : buf.bytes ≠ []) :
    Coalesced setGSO segmentOf maxPayloadLen msgs₀ (done ++ [buf]) (st.append setGSO false buf) := by
  obtain ⟨fitsPayload, fitsSize, -, fewer, notEnded⟩ := Coalescing.accepts_iff.mp accepted
  have full := inv.whole notEnded
  have inside := inv.base_lt longEnough
  have positive : 0 < buf.bytes.length := List.length_pos_iff.mpr nonempty
  have base : (st.append setGSO false buf).base =
      { st.base with buffer := { st.base.buffer with bytes := st.base.buffer.bytes ++ buf.bytes } } := by
    simp [Coalescing.append, Coalescing.base, show st.count - 1 < st.msgs.length by omega]
  have front : (st.append setGSO false buf).msgs.take (st.count - 1) = st.msgs.take (st.count - 1) :=
    List.take_set_of_le (Nat.le_refl _)
  have carried := inv.segments_append accepted nonempty
  refine ⟨?_, inv.count_pos, ?_, ?_, ?_, ?_, ?_, inv.gsoSize_pos, Nat.succ_pos _, fewer, ?_, ?_, ?_, ?_⟩
  · simp [Coalescing.append, inv.length_msgs]
  · simp only [Coalescing.append_count, List.length_append, List.length_singleton]
    exact Nat.le_succ_of_le inv.count_le
  · intro k later
    simp only [Coalescing.append_count] at later
    simp only [Coalescing.append, List.getD_eq_getElem?_getD, List.getElem?_set,
      if_neg (show st.count - 1 ≠ k by have := inv.count_pos; omega)]
    rw [← List.getD_eq_getElem?_getD]
    exact inv.untouched k later
  · simpa only [Coalescing.append_count, front] using inv.closed
  · simp only [Coalescing.append_count, Coalescing.append_gsoSize, front, base, carried,
      ← List.append_assoc, inv.carried, List.map_append, List.map_singleton]
  · simpa only [base] using inv.base_ready
  · simp only [base, List.length_append, Coalescing.append_gsoSize, Coalescing.append_dgramCnt,
      Nat.add_sub_cancel, full]
    omega
  · simp only [base, List.length_append, Coalescing.append_gsoSize, Coalescing.append_dgramCnt,
      full, Nat.mul_succ]
    omega
  · intro ended
    have short : ¬ buf.bytes.length < st.gsoSize := by
      simpa [Coalescing.append, notEnded] using ended
    simp only [base, List.length_append, Coalescing.append_gsoSize, Coalescing.append_dgramCnt,
      full, Nat.mul_succ]
    omega
  · intro _
    simp only [base, List.length_append]
    omega

theorem Coalescing.startBatch_msgs (started : 0 < st.count) (inside : st.count - 1 < st.msgs.length) :
    (st.startBatch setGSO addr ep buf).msgs =
      (st.msgs.set (st.count - 1) (st.closedBase setGSO)).set st.count
        { (st.msgs.getD st.count default) with
          oob := setSrcControl (st.msgs.getD st.count default).oob ep, buffer := buf, addr := some addr } := by
  have unchanged : (st.msgs.set (st.count - 1) (st.closedBase setGSO)).getD st.count default =
      st.msgs.getD st.count default := by
    simp only [List.getD_eq_getElem?_getD, List.getElem?_set]
    split
    · next same => omega
    · rfl
  rw [← unchanged]
  unfold Coalescing.startBatch Coalescing.closedBase
  split
  · rfl
  · simp only [Coalescing.base, List.getD_eq_getElem _ _ inside, List.set_getElem_self]

theorem ready_start (starts : ∀ m ∈ msgs₀, Ready setGSO segmentOf (setSrcControl m.oob ep)) {k : Nat}
    (inside : k < msgs₀.length) : Ready setGSO segmentOf (setSrcControl (msgs₀.getD k default).oob ep) := by
  rw [List.getD_eq_getElem _ _ inside]
  exact starts _ (List.getElem_mem inside)

section assumptions

variable (bound : maxPayloadLen < 2 ^ 16)
  (starts : ∀ m ∈ msgs₀, Ready setGSO segmentOf (setSrcControl m.oob ep))

section

include starts

theorem coalesced_first (nonempty : buf.bytes ≠ []) (inside : 0 < msgs₀.length) :
    Coalesced setGSO segmentOf maxPayloadLen msgs₀ [buf]
      ((⟨0, 0, 0, false, msgs₀⟩ : Coalescing A).startBatch setGSO addr ep buf) := by
  have positive : 0 < buf.bytes.length := List.length_pos_iff.mpr nonempty
  have base : ((⟨0, 0, 0, false, msgs₀⟩ : Coalescing A).startBatch setGSO addr ep buf).base =
      { (msgs₀.getD 0 default) with
        oob := setSrcControl (msgs₀.getD 0 default).oob ep, buffer := buf, addr := some addr } := by
    simp [Coalescing.startBatch, Coalescing.base, inside]
  refine ⟨?_, Nat.one_pos, by simp, ?_, ?_, ?_, ?_, ?_, Nat.one_pos, ?_, ?_, ?_, ?_, ?_⟩
  · simp [Coalescing.startBatch]
  · intro k later
    simp only [Coalescing.startBatch_count] at later
    simp [Coalescing.startBatch, List.getD_eq_getElem?_getD, show 0 ≠ k by omega]
  · simp
  · simp [base, segments_of_length_le positive nonempty (Nat.le_refl _)]
  · rw [base]
    exact ready_start ep starts inside
  all_goals simp [base, udpSegmentMaxDatagrams, positive]

end

include bound

theorem Coalesced.finished (inv : Coalesced setGSO segmentOf maxPayloadLen msgs₀ done st)
    (single : st.dgramCnt = 1) (inside : st.count ≤ st.msgs.length) :
    Finished segmentOf st.count st.msgs done := by
  obtain ⟨closedCarries, closedSegmented⟩ := inv.close bound
  have same : st.closedBase setGSO = st.base := by simp [Coalescing.closedBase, single]
  rw [same] at closedCarries closedSegmented
  have front : st.msgs.take st.count = st.msgs.take (st.count - 1) ++ [st.base] :=
    take_count_eq _ inv.count_pos inside
  refine ⟨?_, ?_⟩
  · rw [front, List.flatMap_append, List.flatMap_singleton, closedCarries, inv.carried]
  · rw [front]
    intro m member
    rcases List.mem_append.mp member with earlier | last
    · exact inv.closed m earlier
    · rw [List.mem_singleton.mp last]
      exact closedSegmented

theorem Coalesced.append_last (inv : Coalesced setGSO segmentOf maxPayloadLen msgs₀ done st)
    (longEnough : done.length < msgs₀.length) (accepted : st.accepts maxPayloadLen buf = true)
    (nonempty : buf.bytes ≠ []) :
    Finished segmentOf (st.append setGSO true buf).count (st.append setGSO true buf).msgs
      (done ++ [buf]) := by
  obtain ⟨fitsPayload, fitsSize, -, fewer, notEnded⟩ := Coalescing.accepts_iff.mp accepted
  have full := inv.whole notEnded
  have inside := inv.base_lt longEnough
  have carried := inv.segments_append accepted nonempty
  have records := inv.base_ready.2
  have first : st.gsoSize ≤ st.gsoSize * st.dgramCnt := Nat.le_mul_of_pos_right _ inv.dgramCnt_pos
  have small : st.gsoSize < 2 ^ 16 := by omega
  let grown : Message A := { st.base with
    buffer := { st.base.buffer with bytes := st.base.buffer.bytes ++ buf.bytes }
    oob := setGSO st.base.oob st.gsoSize.toUInt16 }
  have front : (st.append setGSO true buf).msgs.take st.count = st.msgs.take (st.count - 1) ++ [grown] := by
    rw [take_count_eq _ inv.count_pos (by simp [Coalescing.append]; omega)]
    simp [Coalescing.append, List.take_set_of_le, grown, show st.count - 1 < st.msgs.length by omega]
  have grownCarries : grown.datagrams segmentOf = segments st.gsoSize st.base.buffer.bytes ++ [buf.bytes] := by
    simp only [grown, Message.datagrams, records, Option.getD_some, toNat_toUInt16 small, carried]
  have grownSize : (segmentOf grown.oob.bytes).getD 0 = st.gsoSize := by
    simp only [grown, records, Option.getD_some, toNat_toUInt16 small]
  refine ⟨?_, ?_⟩
  · rw [Coalescing.append_count, front, List.flatMap_append, List.flatMap_singleton, grownCarries,
      ← List.append_assoc, inv.carried, List.map_append, List.map_singleton]
  · rw [Coalescing.append_count, front]
    intro m member
    rcases List.mem_append.mp member with earlier | last
    · exact inv.closed m earlier
    · rw [List.mem_singleton.mp last, grownSize]
      refine ⟨by simp [grown, nonempty], by simp [grown]; omega, ?_⟩
      simp only [grown, carried, List.length_append, List.length_singleton,
        length_segments_batch inv.gsoSize_pos inv.above inv.below]
      exact fewer

include starts

theorem Coalesced.startBatch (inv : Coalesced setGSO segmentOf maxPayloadLen msgs₀ done st)
    (longEnough : done.length < msgs₀.length) (nonempty : buf.bytes ≠ []) :
    Coalesced setGSO segmentOf maxPayloadLen msgs₀ (done ++ [buf]) (st.startBatch setGSO addr ep buf) := by
  have inside := inv.base_lt longEnough
  have started := inv.count_pos
  have positive : 0 < buf.bytes.length := List.length_pos_iff.mpr nonempty
  obtain ⟨closedCarries, closedSegmented⟩ := inv.close bound
  have msgs : (st.startBatch setGSO addr ep buf).msgs = _ :=
    Coalescing.startBatch_msgs addr ep started (by omega)
  rw [inv.untouched _ (Nat.le_refl _)] at msgs
  have base : (st.startBatch setGSO addr ep buf).base = { (msgs₀.getD st.count default) with
      oob := setSrcControl (msgs₀.getD st.count default).oob ep, buffer := buf, addr := some addr } := by
    simp [Coalescing.base, msgs, inside]
  have front : (st.startBatch setGSO addr ep buf).msgs.take st.count =
      st.msgs.take (st.count - 1) ++ [st.closedBase setGSO] := by
    rw [msgs, List.take_set_of_le (Nat.le_refl _), take_count_eq _ started (by simp; omega)]
    simp [List.take_set_of_le, show st.count - 1 < st.msgs.length by omega]
  refine ⟨?_, Nat.succ_pos _, ?_, ?_, ?_, ?_, ?_, ?_, Nat.one_pos, ?_, ?_, ?_, ?_, ?_⟩
  · simp [msgs, inv.length_msgs]
  · simpa using inv.count_le
  · intro k later
    simp only [Coalescing.startBatch_count] at later
    simp only [msgs, List.getD_eq_getElem?_getD, List.getElem?_set,
      if_neg (show st.count ≠ k by omega), if_neg (show st.count - 1 ≠ k by omega)]
    rw [← List.getD_eq_getElem?_getD]
    exact inv.untouched k (by omega)
  · simp only [Coalescing.startBatch_count, Nat.add_sub_cancel, front, List.mem_append,
      List.mem_singleton]
    rintro m (earlier | rfl)
    · exact inv.closed m earlier
    · exact closedSegmented
  · simp only [Coalescing.startBatch_count, Nat.add_sub_cancel, front, Coalescing.startBatch_gsoSize,
      base, List.flatMap_append, List.flatMap_singleton, closedCarries,
      segments_of_length_le positive nonempty (Nat.le_refl _), ← inv.carried, List.map_append,
      List.map_singleton, List.append_assoc]
  · rw [base]
    exact ready_start ep starts (by rw [← inv.length_msgs]; omega)
  · simpa using positive
  · simp [udpSegmentMaxDatagrams]
  · simpa [base] using positive
  · simp [base]
  · simp [base]
  · simp

theorem coalesceLoop_finished (rest : List Buffer) :
    ∀ (buf : Buffer) (done : List Buffer) (st : Coalescing A),
      Coalesced setGSO segmentOf maxPayloadLen msgs₀ done st →
      (done ++ buf :: rest).length ≤ msgs₀.length → (∀ b ∈ buf :: rest, b.bytes ≠ []) →
      let final := coalesceLoop setGSO addr ep maxPayloadLen (done ++ buf :: rest).length.pred
        done.length (buf :: rest) st
      Finished segmentOf final.count final.msgs (done ++ buf :: rest) := by
  induction rest with
  | nil =>
    intro buf done st inv longEnough nonempty
    simp only [List.length_append, List.length_singleton, Nat.pred_succ, coalesceLoop,
      Coalescing.step, decide_true]
    have inside : done.length < msgs₀.length := by simp at longEnough; omega
    split
    · next accepted => exact inv.append_last bound inside accepted.2 (nonempty buf (by simp))
    · -- a last datagram in a batch of its own
      have next := inv.startBatch addr ep bound starts inside (nonempty buf (by simp))
      have counted := inv.count_le
      exact next.finished bound rfl (by rw [next.length_msgs]; simp at longEnough ⊢; omega)
  | cons following rest ih =>
    intro buf done st inv longEnough nonempty
    have inside : done.length < msgs₀.length := by simp at longEnough; omega
    have notLast : done.length ≠ (done ++ buf :: following :: rest).length.pred := by simp
    have next : Coalesced setGSO segmentOf maxPayloadLen msgs₀ (done ++ [buf])
        (st.step setGSO addr ep maxPayloadLen (done ++ buf :: following :: rest).length.pred
          done.length buf) := by
      unfold Coalescing.step
      split
      · next accepted =>
        rw [decide_eq_false notLast]
        exact inv.append inside accepted.2 (nonempty buf (by simp))
      · exact inv.startBatch addr ep bound starts inside (nonempty buf (by simp))
    have continued := ih following (done ++ [buf]) _ next (by simpa using longEnough)
      (fun b member => nonempty b (List.mem_cons_of_mem _ member))
    simp only [List.append_assoc, List.singleton_append, List.length_append,
      List.length_singleton] at continued
    simpa [coalesceLoop] using continued

end assumptions

end invariant

theorem coalesceMessages_finished (setGSO : Buffer → UInt16 → Buffer)
    (segmentOf : List UInt8 → Option Nat) (addr : A) (ep : StdNetEndpoint)
    (bufs : List Buffer) (msgs : List (Message A))
    (starts : ∀ m ∈ msgs, Ready setGSO segmentOf (setSrcControl m.oob ep)) (longEnough : bufs.length ≤ msgs.length)
    (nonempty : ∀ b ∈ bufs, b.bytes ≠ []) :
    Finished segmentOf (coalesceMessages addr ep bufs msgs setGSO).1
      (coalesceMessages addr ep bufs msgs setGSO).2 bufs := by
  have bound : (if ep.dstIs6 then maxIPv6PayloadLen else maxIPv4PayloadLen) < 2 ^ 16 := by
    split <;> decide
  rcases bufs with _ | ⟨first, rest⟩
  · exact ⟨by simp [coalesceMessages, coalesceLoop], by simp [coalesceMessages, coalesceLoop]⟩
  have inside : 0 < msgs.length := by simp at longEnough; omega
  have start : Coalesced setGSO segmentOf (if ep.dstIs6 then maxIPv6PayloadLen else maxIPv4PayloadLen) msgs
      [first] ((⟨0, 0, 0, false, msgs⟩ : Coalescing A).startBatch setGSO addr ep first) :=
    coalesced_first addr ep starts (nonempty first (by simp)) inside
  rcases rest with _ | ⟨second, rest⟩
  · have finished := start.finished bound rfl (by rw [start.length_msgs]; simp; omega)
    simpa [coalesceMessages, coalesceLoop, Coalescing.step] using finished
  · have loop := coalesceLoop_finished addr ep bound starts rest
      second [first] _ start (by simpa using longEnough)
      (fun b member => nonempty b (List.mem_cons_of_mem _ member))
    simpa [coalesceMessages, coalesceLoop, Coalescing.step] using loop

end WarpPlus.Conn
