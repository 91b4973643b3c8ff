import WarpPlus.Conn.Control

/-! Receiving with UDP receive offload: `splitCoalescedMessages` of
`conn/bind_std.go`, as `receiveIP` calls it.

`receiveIP` reads at most `IdealBatchSize / udpSegmentMaxDatagrams` coalesced
messages into the tail of its array, and the split writes their segments to the
front of the same array, in place. A write never reaches a message not yet read
as long as each message's segments end at or before its own slot (`n ≤ i` in the
source); `Placed` describes the tail as `ReadBatch` leaves it, and
`splitFrom_placed` is the run over it. `getGSO` is the function the caller passes,
`getGSOSize` in `receiveIP`.
A slice read past a buffer's end, on which Go panics, is a `take`/`drop` here;
the runs the results speak of stay inside every buffer.
-/

set_option autoImplicit false

namespace WarpPlus.Conn

open Segmentation

variable {A : Type}

def idealBatchSize : Nat := 128

/-- `readAt` of `receiveIP`: where the coalesced messages are read into its array. -/
def readAt (msgs : List (Message A)) : Nat := msgs.length - idealBatchSize / udpSegmentMaxDatagrams

/-- `copied := copy(msgs[n].Buffers[0], piece)`, then `msgs[n].N = copied` and
`msgs[n].Addr = addr`. -/
def Message.receive (dst : Message A) (piece : List UInt8) (addr : Option A) : Message A :=
  let copied := min dst.buffer.bytes.length piece.length
  { dst with
    buffer := { dst.buffer with bytes := piece.take copied ++ dst.buffer.bytes.drop copied }
    n := copied
    addr := addr }

/-- The inner loop for the message at `i`: `left` segments still to write, the next
one to `msgs[n]`, read from `[start, stop)` of `msgs[i]`'s buffer. -/
def splitSegments (i gsoSize : Nat) :
    Nat → List (Message A) → Nat → Nat → Nat → List (Message A) × Nat × Option String
  | 0, msgs, n, _, _ => (msgs, n, none)
  | left + 1, msgs, n, start, stop =>
    if i < n then (msgs, n, some "splitting coalesced packet resulted in overflow")
    else
      let msg := msgs.getD i default
      let msgs := msgs.set n
        ((msgs.getD n default).receive ((msg.buffer.bytes.drop start).take (stop - start)) msg.addr)
      -- `msg` points into the array: its `N` is read again after the write
      let stop' := if (msgs.getD i default).n < stop + gsoSize then (msgs.getD i default).n
        else stop + gsoSize
      splitSegments i gsoSize left msgs (n + 1) stop stop'

/-- The outer loop from the message at `i`, with `left` messages to the end. -/
def splitFrom (getGSO : List UInt8 → Except String Nat) :
    Nat → Nat → List (Message A) → Nat → List (Message A) × Nat × Option String
  | 0, _, msgs, n => (msgs, n, none)
  | left + 1, i, msgs, n =>
    let msg := msgs.getD i default
    if msg.n = 0 then (msgs, n, none)
    else
      match getGSO (msg.oob.bytes.take msg.nn) with
      | .error err => (msgs, n, some err)
      | .ok gsoSize =>
        let numToSplit := if 0 < gsoSize then (msg.n + gsoSize - 1) / gsoSize else 1
        let stop := if 0 < gsoSize then gsoSize else msg.n
        match splitSegments i gsoSize numToSplit msgs n 0 stop with
        | (msgs, n, some err) => (msgs, n, some err)
        | (msgs, n, none) =>
          let msgs := if i ≠ n - 1 then msgs.set i { msgs.getD i default with n := 0 } else msgs
          splitFrom getGSO left (i + 1) msgs n

/-- `splitCoalescedMessages`: the array as it leaves it, the number of datagrams
at its front, and the error. -/
def splitCoalescedMessages (msgs : List (Message A)) (firstMsgAt : Nat)
    (getGSO : List UInt8 → Except String Nat) : List (Message A) × Nat × Option String :=
  splitFrom getGSO (msgs.length - firstMsgAt) firstMsgAt msgs 0

/-- The datagram a message holds: the first `N` bytes of its buffer. -/
def Message.view (m : Message A) : List UInt8 := m.buffer.bytes.take m.n

/-- The coalesced messages `tail` stand from `msgs[readAt]` on, as `ReadBatch` leaves
them: each payload at the front of its buffer, `N` its length, and control data from
which `getGSO` reads its segment size; the message after them, if any, is empty; and
every buffer has room for every payload. -/
structure Placed (getGSO : List UInt8 → Except String Nat) (msgs : List (Message A)) (readAt : Nat)
    (tail : List (List UInt8 × Nat)) : Prop where
  inside : readAt + tail.length ≤ msgs.length
  payload : ∀ j (lt : j < tail.length), tail[j].1 <+: (msgs.getD (readAt + j) default).buffer.bytes
  n_eq : ∀ j (lt : j < tail.length), (msgs.getD (readAt + j) default).n = tail[j].1.length
  gso : ∀ j (lt : j < tail.length),
    getGSO ((msgs.getD (readAt + j) default).oob.bytes.take (msgs.getD (readAt + j) default).nn) =
      .ok tail[j].2
  ends : readAt + tail.length < msgs.length → (msgs.getD (readAt + tail.length) default).n = 0
  room : ∀ k < msgs.length, ∀ p ∈ tail, p.1.length ≤ (msgs.getD k default).buffer.bytes.length

/-- The segments written from `msgs[n]` on, in order; the specification of the inner loop. -/
def receiveAll (addr : Option A) : List (Message A) → Nat → List (List UInt8) → List (Message A)
  | msgs, _, [] => msgs
  | msgs, n, piece :: rest =>
    receiveAll addr (msgs.set n ((msgs.getD n default).receive piece addr)) (n + 1) rest

section receive

variable {addr : Option A}

theorem Message.view_receive (dst : Message A) {piece : List UInt8}
    (fits : piece.length ≤ dst.buffer.bytes.length) : (dst.receive piece addr).view = piece := by
  simp [Message.receive, Message.view, Nat.min_eq_right fits]

@[simp] theorem Message.length_receive (dst : Message A) (piece : List UInt8)
    (fits : piece.length ≤ dst.buffer.bytes.length) :
    (dst.receive piece addr).buffer.bytes.length = dst.buffer.bytes.length := by
  simp [Message.receive, Nat.min_eq_right fits]
  omega

theorem length_receiveAll (pieces : List (List UInt8)) :
    ∀ (msgs : List (Message A)) (n : Nat), (receiveAll addr msgs n pieces).length = msgs.length := by
  induction pieces with
  | nil => intro msgs n; rfl
  | cons piece rest ih => intro msgs n; simp [receiveAll, ih]

theorem getD_receiveAll_of_outside (pieces : List (List UInt8)) :
    ∀ (msgs : List (Message A)) (n k : Nat), (k < n ∨ n + pieces.length ≤ k) →
      (receiveAll addr msgs n pieces).getD k default = msgs.getD k default := by
  induction pieces with
  | nil => intro msgs n k _; rfl
  | cons piece rest ih =>
    intro msgs n k outside
    rw [receiveAll, ih _ _ _ (by simp at outside; omega)]
    simp [List.getD_eq_getElem?_getD, show n ≠ k by simp at outside; omega]

theorem fits_tail {msgs : List (Message A)} {n : Nat} {piece : List UInt8} {rest : List (List UInt8)}
    (fits : ∀ t (lt : t < (piece :: rest).length),
      (piece :: rest)[t].length ≤ (msgs.getD (n + t) default).buffer.bytes.length) :
    ∀ t (lt : t < rest.length), rest[t].length ≤
      ((msgs.set n ((msgs.getD n default).receive piece addr)).getD (n + 1 + t) default).buffer.bytes.length := by
  intro t lt
  have later := fits (t + 1) (by simp; omega)
  simp only [List.getElem_cons_succ] at later
  simpa [List.getD_eq_getElem?_getD, List.getElem?_set, show n ≠ n + 1 + t by omega,
    Nat.add_assoc, Nat.add_comm 1 t] using later

theorem length_getD_receiveAll (pieces : List (List UInt8)) :
    ∀ (msgs : List (Message A)) (n : Nat),
      (∀ t (lt : t < pieces.length), pieces[t].length ≤ (msgs.getD (n + t) default).buffer.bytes.length) →
      ∀ k, ((receiveAll addr msgs n pieces).getD k default).buffer.bytes.length =
        (msgs.getD k default).buffer.bytes.length := by
  induction pieces with
  | nil => intro msgs n _ k; rfl
  | cons piece rest ih =>
    intro msgs n fits k
    have moved := @fits_tail A addr msgs n piece rest fits
    rw [receiveAll, ih _ _ moved k]
    by_cases same : n = k
    · subst same
      have own := fits 0 (by simp)
      by_cases inside : n < msgs.length
      · simp only [List.getD_eq_getElem?_getD, List.getElem?_set_self inside, Option.getD_some]
        simp only [List.getD_eq_getElem?_getD, Nat.add_zero, List.getElem_cons_zero] at own
        exact Message.length_receive _ _ own
      · simp [List.getD_eq_getElem?_getD, inside]
    · simp [List.getD_eq_getElem?_getD, same]

theorem view_receiveAll (pieces : List (List UInt8)) :
    ∀ (msgs : List (Message A)) (n : Nat), n + pieces.length ≤ msgs.length →
      (∀ t (lt : t < pieces.length), pieces[t].length ≤ (msgs.getD (n + t) default).buffer.bytes.length) →
      ((receiveAll addr msgs n pieces).take (n + pieces.length)).map Message.view =
        (msgs.take n).map Message.view ++ pieces := by
  induction pieces with
  | nil => intro msgs n _ _; simp [receiveAll]
  | cons piece rest ih =>
    intro msgs n inside fits
    have own := fits 0 (by simp)
    simp only [Nat.add_zero, List.getElem_cons_zero] at own
    have moved := @fits_tail A addr msgs n piece rest fits
    simp only [List.length_cons] at inside
    rw [receiveAll, List.length_cons, show n + (rest.length + 1) = n + 1 + rest.length by omega,
      ih _ _ (by simp; omega) moved, take_count_eq _ (Nat.succ_pos n) (by simp; omega)]
    have written : (msgs.set n ((msgs.getD n default).receive piece addr)).getD n default =
        (msgs.getD n default).receive piece addr := by
      simp [List.getD_eq_getElem?_getD, show n < msgs.length by omega]
    simp only [Nat.succ_sub_one, List.take_set_of_le (Nat.le_refl n), written,
      Message.view_receive _ own, List.map_append, List.map_cons, List.map_nil, List.append_assoc,
      List.singleton_append]

end receive

section inner

variable {i gsoSize : Nat} {payload : List UInt8} {source : Message A}

theorem cut_eq_segment (pos : 0 < gsoSize) (front : payload <+: source.buffer.bytes) {t : Nat}
    (inside : t < (segments gsoSize payload).length) :
    (source.buffer.bytes.drop (gsoSize * t)).take
        (min (gsoSize * t + gsoSize) payload.length - gsoSize * t) =
      (segments gsoSize payload)[t] := by
  obtain ⟨after, whole⟩ := front
  rw [getElem_segments pos, ← whole]
  rw [length_segments pos] at inside
  have started : gsoSize * t < payload.length := by
    have := (Nat.le_div_iff_mul_le pos).mp inside
    rw [Nat.succ_mul, Nat.mul_comm] at this
    omega
  rw [List.drop_append_of_le_length (by omega), List.take_append_of_le_length (by simp; omega)]
  by_cases full : gsoSize * t + gsoSize ≤ payload.length
  · rw [Nat.min_eq_left full, Nat.add_sub_cancel_left]
  · rw [Nat.min_eq_right (by omega), List.take_of_length_le (by simp),
      List.take_of_length_le (by simp; omega)]

theorem splitSegments_eq_receiveAll (pos : 0 < gsoSize) (front : payload <+: source.buffer.bytes)
    (n_eq : source.n = payload.length) :
    ∀ left t (msgs : List (Message A)) (n start stop : Nat),
      t + left = (segments gsoSize payload).length → n + left ≤ i + 1 →
      (0 < left → msgs.getD i default = source ∧ start = gsoSize * t ∧
        stop = min (gsoSize * t + gsoSize) payload.length) →
      splitSegments i gsoSize left msgs n start stop =
        (receiveAll source.addr msgs n ((segments gsoSize payload).drop t), n + left, none) := by
  intro left
  induction left with
  | zero =>
    intro t msgs n start stop counted _ _
    rw [Nat.add_zero] at counted
    simp [splitSegments, receiveAll, counted]
  | succ left ih =>
    intro t msgs n start stop counted below reading
    obtain ⟨source_at, rfl, rfl⟩ := reading (Nat.succ_pos left)
    have inside : t < (segments gsoSize payload).length := by omega
    rw [List.drop_eq_getElem_cons inside, receiveAll, splitSegments, if_neg (by omega)]
    simp only [source_at, cut_eq_segment pos front inside]
    rw [show n + (left + 1) = n + 1 + left by omega]
    apply ih (t + 1) _ (n + 1) _ _ (by omega) (by omega)
    intro more
    -- the slot written is before `i`, so `msgs[i]` is still the message being split
    have before : n ≠ i := by omega
    have still : (msgs.set n ((msgs.getD n default).receive (segments gsoSize payload)[t]
        source.addr)).getD i default = source := by
      simp [List.getD_eq_getElem?_getD, before, ← source_at]
    have next : gsoSize * t + gsoSize < payload.length := by
      have := (Nat.le_div_iff_mul_le pos).mp (show t + 2 ≤ (payload.length + gsoSize - 1) / gsoSize
        by rw [← length_segments pos]; omega)
      rw [Nat.add_mul, Nat.mul_comm] at this
      omega
    refine ⟨still, ?_, ?_⟩
    · rw [Nat.min_eq_left (Nat.le_of_lt next), Nat.mul_add_one]
    · rw [still, n_eq, Nat.min_eq_left (Nat.le_of_lt next), Nat.mul_add_one]
      split <;> omega

theorem splitSegments_message (segmented : Segmented payload gsoSize)
    (front : payload <+: source.buffer.bytes) (n_eq : source.n = payload.length)
    {msgs : List (Message A)} {n : Nat} (source_at : msgs.getD i default = source)
    (below : n + (segments gsoSize payload).length ≤ i + 1) :
    splitSegments i gsoSize (if 0 < gsoSize then (source.n + gsoSize - 1) / gsoSize else 1) msgs n 0
        (if 0 < gsoSize then gsoSize else source.n) =
      (receiveAll source.addr msgs n (segments gsoSize payload), n + (segments gsoSize payload).length,
        none) := by
  by_cases pos : 0 < gsoSize
  · have started := splitSegments_eq_receiveAll pos front n_eq _ 0 msgs n 0 gsoSize
      (by rw [Nat.zero_add]) below
      (fun _ => ⟨source_at, by rw [Nat.mul_zero], by
        rw [Nat.mul_zero, Nat.zero_add, Nat.min_eq_left segmented.size_le]⟩)
    rw [if_pos pos, if_pos pos, n_eq, ← length_segments pos]
    simpa using started
  · -- no segment size: the payload is one datagram, copied whole
    have zero : gsoSize = 0 := by omega
    subst zero
    have whole : source.buffer.bytes.take payload.length = payload :=
      (List.prefix_iff_eq_take.mp front).symm
    simp only [segments_zero, List.length_singleton] at below ⊢
    rw [if_neg pos, if_neg pos, splitSegments, if_neg (show ¬ i < n by omega)]
    simp only [source_at, Nat.sub_zero, List.drop_zero, n_eq, whole]
    rfl

end inner

section outer

variable {getGSO : List UInt8 → Except String Nat}

theorem getD_zeroN_of_ne (msgs : List (Message A)) {i k : Nat} (other : k ≠ i) :
    (msgs.set i { msgs.getD i default with n := 0 }).getD k default = msgs.getD k default := by
  simp [List.getD_eq_getElem?_getD, Ne.symm other]

theorem length_getD_zeroN (msgs : List (Message A)) (i k : Nat) :
    ((msgs.set i { msgs.getD i default with n := 0 }).getD k default).buffer.bytes.length =
      (msgs.getD k default).buffer.bytes.length := by
  by_cases same : k = i
  · subst same
    by_cases inside : k < msgs.length
    · simp [List.getD_eq_getElem?_getD, inside]
    · simp [List.getD_eq_getElem?_getD, inside]
  · rw [getD_zeroN_of_ne msgs same]

theorem round_receiveAll (addr : Option A) {msgs : List (Message A)} {n i : Nat} {pieces : List (List UInt8)}
    (inside : i < msgs.length) (below : n + pieces.length ≤ i + 1)
    (fits : ∀ t (lt : t < pieces.length), pieces[t].length ≤ (msgs.getD (n + t) default).buffer.bytes.length) :
    let written := receiveAll addr msgs n pieces
    let zeroed := if i ≠ n + pieces.length - 1 then written.set i { written.getD i default with n := 0 }
      else written
    zeroed.length = msgs.length ∧ (∀ k, i < k → zeroed.getD k default = msgs.getD k default) ∧
      (∀ k, (zeroed.getD k default).buffer.bytes.length = (msgs.getD k default).buffer.bytes.length) ∧
      (zeroed.take (n + pieces.length)).map Message.view = (msgs.take n).map Message.view ++ pieces := by
  intro written zeroed
  refine ⟨?_, fun k after => ?_, fun k => ?_, ?_⟩
  · simp only [zeroed, written]
    split <;> simp [length_receiveAll]
  · have kept : written.getD k default = msgs.getD k default :=
      getD_receiveAll_of_outside _ _ _ _ (.inr (by omega))
    simp only [zeroed]
    split
    · rw [getD_zeroN_of_ne _ (by omega), kept]
    · exact kept
  · have kept := @length_getD_receiveAll A addr _ msgs n fits k
    simp only [zeroed]
    split
    · rw [length_getD_zeroN]
      exact kept
    · exact kept
  · have whole := @view_receiveAll A addr _ msgs n (by omega) fits
    simp only [zeroed]
    split
    · rw [List.take_set_of_le (by omega)]
      exact whole
    · exact whole

theorem Placed.rest {msgs msgs' : List (Message A)} {i : Nat} {first : List UInt8 × Nat}
    {rest : List (List UInt8 × Nat)} (placed : Placed getGSO msgs i (first :: rest))
    (length_eq : msgs'.length = msgs.length)
    (later : ∀ k, i < k → msgs'.getD k default = msgs.getD k default)
    (buffers : ∀ k, (msgs'.getD k default).buffer.bytes.length = (msgs.getD k default).buffer.bytes.length) :
    Placed getGSO msgs' (i + 1) rest := by
  have shift : ∀ j, i + 1 + j = i + (j + 1) := fun j => by omega
  refine ⟨?_, fun j lt => ?_, fun j lt => ?_, fun j lt => ?_, fun beyond => ?_, fun k lt q member => ?_⟩
  · have := placed.inside
    simp only [List.length_cons] at this
    omega
  · rw [later _ (by omega), shift]
    exact placed.payload (j + 1) (by simp; omega)
  · rw [later _ (by omega), shift]
    exact placed.n_eq (j + 1) (by simp; omega)
  · rw [later _ (by omega), shift]
    exact placed.gso (j + 1) (by simp; omega)
  · rw [later _ (by omega), shift]
    exact placed.ends (by simp only [List.length_cons]; rw [length_eq] at beyond; omega)
  · rw [buffers]
    exact placed.room k (by omega) q (List.mem_cons_of_mem _ member)

/-- From a placed tail whose segments never overtake the slot being read, the split
writes every segment of every message, in order, to the front of the array. -/
theorem splitFrom_placed (tail : List (List UInt8 × Nat)) :
    ∀ (msgs : List (Message A)) (i n : Nat), Placed getGSO msgs i tail →
      (∀ p ∈ tail, Segmented p.1 p.2) →
      (∀ j < tail.length,
        n + ((tail.take (j + 1)).flatMap fun p => segments p.2 p.1).length ≤ i + j + 1) →
      let out := splitFrom getGSO (msgs.length - i) i msgs n
      out.2.2 = none ∧ out.2.1 = n + (tail.flatMap fun p => segments p.2 p.1).length ∧
        (out.1.take out.2.1).map Message.view =
          (msgs.take n).map Message.view ++ tail.flatMap fun p => segments p.2 p.1 := by
  induction tail with
  | nil =>
    intro msgs i n placed _ _
    by_cases inside : i < msgs.length
    · -- the slot after the tail is empty, and the loop stops there
      obtain ⟨left, hleft⟩ : ∃ left, msgs.length - i = left + 1 := ⟨msgs.length - i - 1, by omega⟩
      have empty := placed.ends (by simpa using inside)
      simp only [List.length_nil, Nat.add_zero] at empty
      rw [hleft, splitFrom]
      simp only [empty, if_true]
      simp
    · simp [show msgs.length - i = 0 by omega, splitFrom]
  | cons first rest ih =>
    intro msgs i n placed segmented fits
    have inside := placed.inside
    simp only [List.length_cons] at inside
    obtain ⟨left, hleft⟩ : ∃ left, msgs.length - i = left + 1 := ⟨msgs.length - i - 1, by omega⟩
    have front := placed.payload 0 (by simp)
    have n_eq := placed.n_eq 0 (by simp)
    have gso := placed.gso 0 (by simp)
    simp only [Nat.add_zero, List.getElem_cons_zero] at front n_eq gso
    have seg := segmented first List.mem_cons_self
    have below : n + (segments first.2 first.1).length ≤ i + 1 := by
      simpa using fits 0 (by simp)
    have nonzero : (msgs.getD i default).n ≠ 0 := by
      rw [n_eq]
      exact Nat.pos_iff_ne_zero.mp (List.length_pos_iff.mpr seg.nonempty)
    -- the writes of the first message's segments
    have fitsAll : ∀ t (lt : t < (segments first.2 first.1).length),
        (segments first.2 first.1)[t].length ≤ (msgs.getD (n + t) default).buffer.bytes.length :=
      fun t lt => Nat.le_trans (length_le_of_mem_segments (List.getElem_mem lt))
        (placed.room _ (by omega) first List.mem_cons_self)
    obtain ⟨length_zeroed, later, buffers, viewed⟩ :=
      round_receiveAll (msgs.getD i default).addr (by omega) below fitsAll
    set count := (segments first.2 first.1).length
    set written := receiveAll (msgs.getD i default).addr msgs n (segments first.2 first.1)
    set zeroed := if i ≠ n + count - 1 then written.set i { written.getD i default with n := 0 }
      else written
    have fitsRest : ∀ j < rest.length, n + count +
        ((rest.take (j + 1)).flatMap fun p => segments p.2 p.1).length ≤ i + 1 + j + 1 := by
      intro j lt
      have := fits (j + 1) (by simp; omega)
      simp only [List.take_succ_cons, List.flatMap_cons, List.length_append] at this
      omega
    obtain ⟨noError, counted, shown⟩ := ih zeroed (i + 1) (n + count)
      (placed.rest length_zeroed later buffers)
      (fun p member => segmented p (List.mem_cons_of_mem _ member)) fitsRest
    rw [length_zeroed, show msgs.length - (i + 1) = left by omega] at noError counted shown
    have step : splitFrom getGSO (msgs.length - i) i msgs n =
        splitFrom getGSO left (i + 1) zeroed (n + count) := by
      rw [hleft, splitFrom]
      simp only [if_neg nonzero, gso]
      rw [splitSegments_message seg front n_eq rfl below]
    rw [step]
    refine ⟨noError, ?_, ?_⟩
    · rw [counted, List.flatMap_cons, List.length_append, Nat.add_assoc]
    · rw [counted, ← Nat.add_assoc] at *
      rw [shown, viewed, List.flatMap_cons, List.append_assoc]

end outer

theorem length_flatMap_segments_le (tail : List (List UInt8 × Nat))
    (segmented : ∀ p ∈ tail, Segmented p.1 p.2) :
    (tail.flatMap fun p => segments p.2 p.1).length ≤ udpSegmentMaxDatagrams * tail.length := by
  induction tail with
  | nil => simp
  | cons first rest ih =>
    have own := (segmented first List.mem_cons_self).few
    have others := ih fun p member => segmented p (List.mem_cons_of_mem _ member)
    rw [List.flatMap_cons, List.length_append, List.length_cons, Nat.mul_succ]
    omega

/-- Datagrams survive the trip through segmentation offload. On the way out, with the
control capacity the pool gives each message and the sticky source `getSrcFromControl`
leaves, the messages `coalesceMessages` fills with `setGSOSize` carry `bufs` in order, each
cut at the `UDP_SEGMENT` size its control data records, and each within what offload can
split. On the way in, such messages read into the last
`IdealBatchSize / udpSegmentMaxDatagrams` slots of `receiveIP`'s array are split by
`getGSOSize` back into exactly their datagrams, in order, at the front, with no overflow. -/
theorem coalesce_split_round_trip (addr : A) (ep : StdNetEndpoint) (sticky : ep.Sticky)
    (bufs : List Buffer) (msgs : List (Message A))
    (pooled : ∀ m ∈ msgs, m.oob.capacity = stickyControlSize + gsoControlSize)
    (longEnough : bufs.length ≤ msgs.length) (nonempty : ∀ b ∈ bufs, b.bytes ≠ []) (received : List (Message A))
    (tail : List (List UInt8 × Nat)) (batch : received.length = idealBatchSize)
    (placed : Placed getGSOSize received (readAt received) tail)
    (segmented : ∀ p ∈ tail, Segmented p.1 p.2) :
    Finished segmentSize (coalesceMessages addr ep bufs msgs setGSOSize).1
        (coalesceMessages addr ep bufs msgs setGSOSize).2 bufs ∧
      (splitCoalescedMessages received (readAt received) getGSOSize).2.2 = none ∧
      (splitCoalescedMessages received (readAt received) getGSOSize).2.1 =
        (tail.flatMap fun p => segments p.2 p.1).length ∧
      ((splitCoalescedMessages received (readAt received) getGSOSize).1.take
          (splitCoalescedMessages received (readAt received) getGSOSize).2.1).map Message.view =
        tail.flatMap fun p => segments p.2 p.1 := by
  refine ⟨coalesceMessages_finished setGSOSize segmentSize addr ep bufs msgs
    (fun m member => ready_setSrcControl sticky (pooled m member)) longEnough nonempty, ?_⟩
  have two : tail.length ≤ 2 := by
    have := placed.inside
    simp only [readAt, batch, idealBatchSize, udpSegmentMaxDatagrams] at this
    omega
  -- a message's segments never pass its own slot: at most 64 of them per message read
  have fits : ∀ j < tail.length,
      0 + ((tail.take (j + 1)).flatMap fun p => segments p.2 p.1).length ≤ readAt received + j + 1 := by
    intro j lt
    have bounded := length_flatMap_segments_le (tail.take (j + 1))
      fun p member => segmented p (List.mem_of_mem_take member)
    have prefixLength : (tail.take (j + 1)).length ≤ j + 1 := by
      rw [List.length_take]
      exact Nat.min_le_left _ _
    have : udpSegmentMaxDatagrams * (tail.take (j + 1)).length ≤ udpSegmentMaxDatagrams * (j + 1) :=
      Nat.mul_le_mul_left _ prefixLength
    simp only [readAt, batch, idealBatchSize, udpSegmentMaxDatagrams] at bounded this ⊢
    omega
  obtain ⟨noError, counted, shown⟩ := splitFrom_placed tail received _ 0 placed segmented fits
  rw [Nat.zero_add] at counted
  rw [List.take_zero, List.map_nil, List.nil_append] at shown
  exact ⟨noError, counted, shown⟩

/-- `receiveIP`'s array after a read of two messages: three one-byte segments, with the
`UDP_GRO` message of size 1 the kernel writes, then a single datagram. -/
def twoMessagesRead : List (Message Nat) :=
  List.replicate 126 ⟨⟨[0, 0, 0], 3⟩, ⟨[], 0⟩, none, 0, 0⟩ ++
    [⟨⟨[7, 8, 9], 3⟩, ⟨controlMessage solUDP udpGRO [1, 0], 24⟩, some 9, 3, 24⟩,
      ⟨⟨[5, 0, 0], 3⟩, ⟨[], 0⟩, some 9, 1, 0⟩]

/-- Two datagrams of two bytes go out from pooled messages as one message with segment
size 2, and the read above splits into four datagrams. -/
theorem coalesce_split_round_trip_run :
    (⟨false, []⟩ : StdNetEndpoint).Sticky ∧
      Finished segmentSize
        (coalesceMessages (0 : Nat) ⟨false, []⟩ [⟨[1, 2], 4⟩, ⟨[3, 4], 2⟩]
          (List.replicate 2 ⟨⟨[], 0⟩, ⟨[], 64⟩, none, 0, 0⟩) setGSOSize).1
        (coalesceMessages (0 : Nat) ⟨false, []⟩ [⟨[1, 2], 4⟩, ⟨[3, 4], 2⟩]
          (List.replicate 2 ⟨⟨[], 0⟩, ⟨[], 64⟩, none, 0, 0⟩) setGSOSize).2
        [⟨[1, 2], 4⟩, ⟨[3, 4], 2⟩] ∧
      (splitCoalescedMessages twoMessagesRead (readAt twoMessagesRead) getGSOSize).2.2 = none ∧
      (splitCoalescedMessages twoMessagesRead (readAt twoMessagesRead) getGSOSize).2.1 =
        ([([7, 8, 9], 1), ([5], 0)].flatMap fun p => segments p.2 p.1).length ∧
      ((splitCoalescedMessages twoMessagesRead (readAt twoMessagesRead) getGSOSize).1.take
          (splitCoalescedMessages twoMessagesRead (readAt twoMessagesRead) getGSOSize).2.1).map
          Message.view =
        [([7, 8, 9], 1), ([5], 0)].flatMap fun p => segments p.2 p.1 := by
  have sticky : (⟨false, []⟩ : StdNetEndpoint).Sticky := Or.inl rfl
  refine ⟨sticky, coalesce_split_round_trip (0 : Nat) ⟨false, []⟩ sticky [⟨[1, 2], 4⟩, ⟨[3, 4], 2⟩]
    (List.replicate 2 ⟨⟨[], 0⟩, ⟨[], 64⟩, none, 0, 0⟩) ?_ ?_ ?_ twoMessagesRead
    [([7, 8, 9], 1), ([5], 0)] ?_ ⟨?_, ?_, ?_, ?_, ?_, ?_⟩ ?_⟩
  all_goals decide +kernel

end WarpPlus.Conn
