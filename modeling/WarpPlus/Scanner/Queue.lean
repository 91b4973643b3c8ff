import Mathlib
import WarpPlus.Semantics.Search

/-! The scanner's queue of good addresses: `IPQueue` of `engine/queue.go` over
the reserved queue `IPInfQueue` of `statute/queue.go`.

Durations and times are nanosecond counts, and each `Expire` reads the clock
once. The `available` channel and the logger do not affect the queues and are
left out. `sort.Slice` is not stable, so the model takes the sort as a
parameter with the contract Go documents for it.
-/

set_option autoImplicit false

namespace WarpPlus.Scanner

variable {Addr : Type}

/-- `statute.IPInfo`; the queue never looks at the address. -/
structure IPInfo (Addr : Type) where
  addrPort : Addr
  rtt : Int
  createdAt : Int

/-- What `sort.Slice` with the less function `a.RTT < b.RTT` promises: the same
items, ascending by RTT, in some order among equal RTTs. -/
structure SortsByRTT (sortSlice : List (IPInfo Addr) → List (IPInfo Addr)) : Prop where
  perm : ∀ items, (sortSlice items).Perm items
  sorted : ∀ items, (sortSlice items).Pairwise fun a b => a.rtt ≤ b.rtt

/-- `statute.IPInfQueue`. -/
structure IPInfQueue (Addr : Type) where
  items : List (IPInfo Addr)

/-- Adds an item and then sorts the queue. -/
def IPInfQueue.enqueue (sortSlice : List (IPInfo Addr) → List (IPInfo Addr))
    (q : IPInfQueue Addr) (item : IPInfo Addr) : IPInfQueue Addr :=
  ⟨sortSlice (q.items ++ [item])⟩

/-- Removes the item with the lowest RTT and stamps it with the current time; an
empty queue answers a zero item (address `default`, time zero). -/
def IPInfQueue.dequeue [Inhabited Addr] (now : Int) (q : IPInfQueue Addr) :
    IPInfo Addr × IPInfQueue Addr :=
  match q.items with
  | [] => (⟨default, 0, 0⟩, q)
  | item :: rest => ({ item with createdAt := now }, ⟨rest⟩)

def IPInfQueue.size (q : IPInfQueue Addr) : Nat := q.items.length

structure IPQueue (Addr : Type) where
  queue : List (IPInfo Addr)
  maxQueueSize : Int
  maxTTL : Int
  rttThreshold : Int
  inIdealMode : Bool
  reserved : IPInfQueue Addr

/-- `NewIPQueue` with `IPQueueSize`, `IPQueueTTL` and `MaxDesirableRTT`. -/
def newIPQueue (size ttl maxRTT : Int) : IPQueue Addr := ⟨[], size, ttl, maxRTT, false, ⟨[]⟩⟩

/-- `q.queue[i].RTT > info.RTT`, the predicate `Enqueue` searches for. -/
def rttAbove (queue : List (IPInfo Addr)) (rtt : Int) (i : Nat) : Bool :=
  match queue[i]? with
  | some member => decide (rtt < member.rtt)
  | none => true

/-- The middle of `Enqueue` on a sorted, non-empty queue: drop the worst item for
a better one when full, insert in sorted position when not full, and otherwise
keep the item in the reserved queue. -/
def IPQueue.place (sortSlice : List (IPInfo Addr) → List (IPInfo Addr)) (q : IPQueue Addr)
    (info : IPInfo Addr) (nonempty : q.queue ≠ []) : IPQueue Addr :=
  if info.rtt ≤ q.rttThreshold then
    if q.maxQueueSize ≤ q.queue.length ∧ info.rtt < (q.queue.getLast nonempty).rtt then
      { q with queue := q.queue.dropLast }
    else if (q.queue.length : Int) < q.maxQueueSize then
      let index := BinarySearch.search q.queue.length (rttAbove q.queue info.rtt)
      { q with queue := q.queue.take index ++ info :: q.queue.drop index }
    else { q with reserved := q.reserved.enqueue sortSlice info }
  else q

/-- `Enqueue`: sort, place the item, and report whether the queue is full of
items under the threshold (then entering ideal mode). -/
def IPQueue.enqueue (sortSlice : List (IPInfo Addr) → List (IPInfo Addr)) (q : IPQueue Addr)
    (info : IPInfo Addr) : Bool × IPQueue Addr :=
  let sorted : IPQueue Addr := { q with queue := sortSlice q.queue }
  if empty : sorted.queue = [] then (false, { sorted with queue := sorted.queue ++ [info] })
  else
    let placed := sorted.place sortSlice info empty
    if placed.queue.any fun member => decide (placed.rttThreshold < member.rtt) then (false, placed)
    else if (placed.queue.length : Int) < placed.maxQueueSize then (false, placed)
    else (true, { placed with inIdealMode := true })

/-- `Dequeue` pops the tail; `none` stands for `(IPInfo{}, false)`. -/
def IPQueue.dequeue (q : IPQueue Addr) : Option (IPInfo Addr) × IPQueue Addr :=
  match q.queue.getLast? with
  | none => (none, q)
  | some info => (some info, { q with queue := q.queue.dropLast })

/-- `for i := 0; i < q.maxQueueSize && i < q.reserved.Size(); i++ { q.queue =
append(q.queue, q.reserved.Dequeue()) }`, from counter `i`. Each round dequeues
the head of the reserved items, so the loop follows them. -/
def refill [Inhabited Addr] (now maxQueueSize : Int) (queue : List (IPInfo Addr)) (i : Nat) :
    List (IPInfo Addr) → List (IPInfo Addr) × List (IPInfo Addr)
  | [] => (queue, [])
  | item :: rest =>
    if (i : Int) < maxQueueSize ∧ i < (item :: rest).length then
      let taken := IPInfQueue.dequeue now ⟨item :: rest⟩
      refill now maxQueueSize (queue ++ [taken.1]) (i + 1) rest
    else (queue, item :: rest)

/-- `Expire` at clock `now`: drop items older than `maxTTL`, then refill. -/
def IPQueue.expire [Inhabited Addr] (now : Int) (q : IPQueue Addr) : IPQueue Addr :=
  let kept := q.queue.filter fun info => !decide (q.maxTTL < now - info.createdAt)
  let refilled := refill now q.maxQueueSize kept 0 q.reserved.items
  { q with queue := refilled.1, reserved := ⟨refilled.2⟩ }

/-- The operations a client of the queue performs. -/
inductive Op (Addr : Type) where
  | enqueue (info : IPInfo Addr)
  | dequeue
  | expire (now : Int)

def IPQueue.apply [Inhabited Addr] (sortSlice : List (IPInfo Addr) → List (IPInfo Addr))
    (q : IPQueue Addr) : Op Addr → IPQueue Addr
  | .enqueue info => (q.enqueue sortSlice info).2
  | .dequeue => q.dequeue.2
  | .expire now => q.expire now

section lemmas

variable {sortSlice : List (IPInfo Addr) → List (IPInfo Addr)}

theorem SortsByRTT.length_eq (lawful : SortsByRTT sortSlice) (items : List (IPInfo Addr)) :
    (sortSlice items).length = items.length :=
  (lawful.perm items).length_eq

theorem SortsByRTT.nil (lawful : SortsByRTT sortSlice) : sortSlice [] = [] :=
  List.perm_nil.mp (lawful.perm [])

theorem SortsByRTT.singleton (lawful : SortsByRTT sortSlice) (item : IPInfo Addr) :
    sortSlice [item] = [item] :=
  List.perm_singleton.mp (lawful.perm [item])

theorem SortsByRTT.mergeSort :
    SortsByRTT fun items : List (IPInfo Addr) => items.mergeSort fun a b => decide (a.rtt ≤ b.rtt) :=
  ⟨fun items => List.mergeSort_perm items _,
    fun items => (List.pairwise_mergeSort (fun a b c ab bc => by simp_all; omega)
      (fun a b => by simp; omega) items).imp (by simp)⟩

theorem le_getLast_rtt {queue : List (IPInfo Addr)} (sorted : queue.Pairwise fun a b => a.rtt ≤ b.rtt)
    (nonempty : queue ≠ []) {member : IPInfo Addr} (held : member ∈ queue) :
    member.rtt ≤ (queue.getLast nonempty).rtt := by
  have whole := List.dropLast_append_getLast nonempty
  rw [← whole] at sorted held
  obtain ⟨-, -, across⟩ := List.pairwise_append.mp sorted
  rcases List.mem_append.mp held with front | last
  · exact across member front _ (List.mem_singleton_self _)
  · rw [List.mem_singleton.mp last]

theorem rttAbove_eq (queue : List (IPInfo Addr)) (rtt : Int) (i : Nat) (inside : i < queue.length) :
    rttAbove queue rtt i = decide (rtt < queue[i].rtt) := by
  simp [rttAbove, inside]

variable (sortSlice)

@[simp] theorem IPQueue.place_maxQueueSize (q : IPQueue Addr) (info : IPInfo Addr)
    (nonempty : q.queue ≠ []) : (q.place sortSlice info nonempty).maxQueueSize = q.maxQueueSize := by
  unfold IPQueue.place
  split_ifs <;> rfl

theorem IPQueue.place_length_le (q : IPQueue Addr) (info : IPInfo Addr) (nonempty : q.queue ≠ [])
    (bound : (q.queue.length : Int) ≤ q.maxQueueSize) :
    ((q.place sortSlice info nonempty).queue.length : Int) ≤ q.maxQueueSize := by
  unfold IPQueue.place
  split_ifs with good full room
  · simp only [List.length_dropLast]
    omega
  · simp only [List.length_append, List.length_take, List.length_cons, List.length_drop]
    omega
  · exact bound
  · exact bound

theorem IPQueue.place_sorted (q : IPQueue Addr) (info : IPInfo Addr) (nonempty : q.queue ≠ [])
    (sorted : q.queue.Pairwise fun a b => a.rtt ≤ b.rtt) :
    (q.place sortSlice info nonempty).queue.Pairwise fun a b => a.rtt ≤ b.rtt := by
  unfold IPQueue.place
  split_ifs with good full room
  · exact sorted.sublist (List.dropLast_sublist _)
  · exact BinarySearch.pairwise_insert_at_search IPInfo.rtt q.queue info _ sorted
      (rttAbove_eq q.queue info.rtt)
  · exact sorted
  · exact sorted

theorem IPQueue.enqueue_snd (q : IPQueue Addr) (info : IPInfo Addr) :
    ∃ flag, (q.enqueue sortSlice info).2 =
      if empty : sortSlice q.queue = [] then { q with queue := [info] }
      else { ({ q with queue := sortSlice q.queue }.place sortSlice info empty) with
        inIdealMode := flag } := by
  unfold IPQueue.enqueue
  by_cases empty : sortSlice q.queue = []
  · exact ⟨false, by simp [empty]⟩
  · simp only [dif_neg empty]
    split_ifs
    · exact ⟨_, rfl⟩
    · exact ⟨_, rfl⟩
    · exact ⟨true, rfl⟩

theorem IPQueue.enqueue_queue (q : IPQueue Addr) (info : IPInfo Addr) :
    (q.enqueue sortSlice info).2.queue =
      if empty : sortSlice q.queue = [] then [info]
      else ({ q with queue := sortSlice q.queue }.place sortSlice info empty).queue := by
  obtain ⟨flag, same⟩ := q.enqueue_snd sortSlice info
  rw [same]
  split <;> rfl

@[simp] theorem IPQueue.enqueue_maxQueueSize (q : IPQueue Addr) (info : IPInfo Addr) :
    (q.enqueue sortSlice info).2.maxQueueSize = q.maxQueueSize := by
  obtain ⟨flag, same⟩ := q.enqueue_snd sortSlice info
  rw [same]
  split <;> simp

@[simp] theorem IPQueue.enqueue_maxTTL (q : IPQueue Addr) (info : IPInfo Addr) :
    (q.enqueue sortSlice info).2.maxTTL = q.maxTTL := by
  obtain ⟨flag, same⟩ := q.enqueue_snd sortSlice info
  rw [same]
  split
  · rfl
  · simp only [IPQueue.place]
    split_ifs <;> rfl

@[simp] theorem IPQueue.enqueue_rttThreshold (q : IPQueue Addr) (info : IPInfo Addr) :
    (q.enqueue sortSlice info).2.rttThreshold = q.rttThreshold := by
  obtain ⟨flag, same⟩ := q.enqueue_snd sortSlice info
  rw [same]
  split
  · rfl
  · simp only [IPQueue.place]
    split_ifs <;> rfl

theorem IPQueue.enqueue_of_empty (q : IPQueue Addr) (info : IPInfo Addr)
    (empty : sortSlice q.queue = []) :
    (q.enqueue sortSlice info).2.queue = [info] ∧ (q.enqueue sortSlice info).2.reserved = q.reserved := by
  obtain ⟨flag, same⟩ := q.enqueue_snd sortSlice info
  rw [same, dif_pos empty]
  exact ⟨rfl, rfl⟩

theorem IPQueue.dequeue_queue (q : IPQueue Addr) : q.dequeue.2.queue = q.queue.dropLast := by
  unfold IPQueue.dequeue
  split
  · next none => simp_all
  · rfl

variable {sortSlice}

theorem IPQueue.enqueue_length_le (lawful : SortsByRTT sortSlice) (q : IPQueue Addr)
    (info : IPInfo Addr) (positive : 1 ≤ q.maxQueueSize)
    (bound : (q.queue.length : Int) ≤ q.maxQueueSize) :
    ((q.enqueue sortSlice info).2.queue.length : Int) ≤ (q.enqueue sortSlice info).2.maxQueueSize := by
  rw [IPQueue.enqueue_queue, IPQueue.enqueue_maxQueueSize]
  split
  · simpa using positive
  · next empty =>
    refine IPQueue.place_length_le sortSlice { q with queue := sortSlice q.queue } info empty ?_
    simpa [lawful.length_eq] using bound

theorem IPQueue.enqueue_sorted (lawful : SortsByRTT sortSlice) (q : IPQueue Addr)
    (info : IPInfo Addr) :
    (q.enqueue sortSlice info).2.queue.Pairwise fun a b => a.rtt ≤ b.rtt := by
  rw [IPQueue.enqueue_queue]
  split
  · exact List.pairwise_singleton _ _
  · next empty => exact IPQueue.place_sorted sortSlice _ info empty (lawful.sorted q.queue)

theorem IPQueue.enqueue_reserves (lawful : SortsByRTT sortSlice) (q : IPQueue Addr)
    (info : IPInfo Addr) (nonempty : q.queue ≠ []) (under : info.rtt ≤ q.rttThreshold)
    (full : q.maxQueueSize ≤ q.queue.length) (worst : ∀ member ∈ q.queue, member.rtt ≤ info.rtt) :
    (q.enqueue sortSlice info).2.queue = sortSlice q.queue ∧
      (q.enqueue sortSlice info).2.reserved = q.reserved.enqueue sortSlice info := by
  have sortedNonempty : sortSlice q.queue ≠ [] := fun empty =>
    nonempty (List.perm_nil.mp ((lawful.perm q.queue).symm.trans (List.perm_nil.mpr empty)))
  have sortedFull : q.maxQueueSize ≤ (sortSlice q.queue).length := by
    rw [lawful.length_eq]
    exact full
  have notBetter : ¬ info.rtt < ((sortSlice q.queue).getLast sortedNonempty).rtt := by
    have member := (lawful.perm q.queue).mem_iff.mp (List.getLast_mem sortedNonempty)
    exact not_lt.mpr (worst _ member)
  obtain ⟨flag, same⟩ := q.enqueue_snd sortSlice info
  rw [same, dif_neg sortedNonempty]
  simp only [IPQueue.place, if_pos under]
  rw [if_neg (fun both => notBetter both.2), if_neg (not_lt.mpr sortedFull)]
  exact ⟨rfl, rfl⟩

theorem IPQueue.enqueue_of_full_better (lawful : SortsByRTT sortSlice) (q : IPQueue Addr)
    (info : IPInfo Addr) (under : info.rtt ≤ q.rttThreshold) (full : q.maxQueueSize ≤ q.queue.length)
    (better : ∃ member ∈ q.queue, info.rtt < member.rtt) :
    (q.enqueue sortSlice info).2.queue = (sortSlice q.queue).dropLast ∧
      (q.enqueue sortSlice info).2.reserved = q.reserved := by
  obtain ⟨member, held, beaten⟩ := better
  have sortedHeld : member ∈ sortSlice q.queue := (lawful.perm q.queue).mem_iff.mpr held
  have sortedNonempty : sortSlice q.queue ≠ [] := List.ne_nil_of_mem sortedHeld
  have sortedFull : q.maxQueueSize ≤ (sortSlice q.queue).length := by
    rw [lawful.length_eq]
    exact full
  -- the member it beats is at most the tail of the sorted queue
  have beatsWorst : info.rtt < ((sortSlice q.queue).getLast sortedNonempty).rtt :=
    lt_of_lt_of_le beaten (le_getLast_rtt (lawful.sorted q.queue) sortedNonempty sortedHeld)
  obtain ⟨flag, same⟩ := q.enqueue_snd sortSlice info
  rw [same, dif_neg sortedNonempty]
  simp only [IPQueue.place, if_pos under]
  rw [if_pos ⟨sortedFull, beatsWorst⟩]
  exact ⟨rfl, rfl⟩

theorem IPQueue.enqueue_holds_item (lawful : SortsByRTT sortSlice) (q : IPQueue Addr)
    (info : IPInfo Addr) (under : info.rtt ≤ q.rttThreshold)
    (notReplacing : ¬ (q.maxQueueSize ≤ q.queue.length ∧ ∃ member ∈ q.queue, info.rtt < member.rtt)) :
    info ∈ (q.enqueue sortSlice info).2.queue ∨ info ∈ (q.enqueue sortSlice info).2.reserved.items := by
  obtain ⟨flag, same⟩ := q.enqueue_snd sortSlice info
  rw [same]
  split
  · exact Or.inl (List.mem_singleton_self info)
  · next sortedNonempty =>
    simp only [IPQueue.place, if_pos under]
    have notWorse : ¬ (q.maxQueueSize ≤ (sortSlice q.queue).length ∧
        info.rtt < ((sortSlice q.queue).getLast sortedNonempty).rtt) := by
      rintro ⟨full, beats⟩
      have tail := (lawful.perm q.queue).mem_iff.mp (List.getLast_mem sortedNonempty)
      exact notReplacing ⟨by rwa [lawful.length_eq] at full, _, tail, beats⟩
    rw [if_neg notWorse]
    split
    · -- room left: inserted where `sort.Search` points
      exact Or.inl (List.mem_append_right _ (List.mem_cons_self ..))
    · -- full: kept in the reserved queue, which sorts what it holds
      exact Or.inr ((lawful.perm _).mem_iff.mpr (List.mem_append_right _ (List.mem_singleton_self info)))

theorem IPQueue.dequeue_length_le (q : IPQueue Addr) : q.dequeue.2.queue.length ≤ q.queue.length := by
  rw [IPQueue.dequeue_queue, List.length_dropLast]
  omega

theorem IPQueue.dequeue_sorted (q : IPQueue Addr) (sorted : q.queue.Pairwise fun a b => a.rtt ≤ b.rtt) :
    q.dequeue.2.queue.Pairwise fun a b => a.rtt ≤ b.rtt := by
  rw [IPQueue.dequeue_queue]
  exact sorted.sublist (List.dropLast_sublist _)

theorem refill_length [Inhabited Addr] (now maxQueueSize : Int) (queue items : List (IPInfo Addr))
    (i : Nat) :
    (refill now maxQueueSize queue i items).1.length =
      queue.length + min (maxQueueSize - i).toNat ((items.length - i + 1) / 2) := by
  induction items generalizing queue i with
  | nil => simp [refill]
  | cons item rest ih =>
    simp only [refill]
    split
    · next going =>
      rw [ih]
      simp only [List.length_append, List.length_cons, List.length_nil] at going ⊢
      omega
    · next stopped =>
      simp only [List.length_cons, not_and_or, not_lt] at stopped ⊢
      omega

theorem IPQueue.expire_length [Inhabited Addr] (now : Int) (q : IPQueue Addr) :
    (q.expire now).queue.length =
      (q.queue.filter fun info => !decide (q.maxTTL < now - info.createdAt)).length +
        min q.maxQueueSize.toNat ((q.reserved.items.length + 1) / 2) := by
  simp [IPQueue.expire, refill_length]

end lemmas

/-! ### Runs without `Expire` -/

@[simp] theorem IPQueue.dequeue_maxQueueSize (q : IPQueue Addr) :
    q.dequeue.2.maxQueueSize = q.maxQueueSize := by
  unfold IPQueue.dequeue
  split <;> rfl

@[simp] theorem IPQueue.dequeue_rttThreshold (q : IPQueue Addr) :
    q.dequeue.2.rttThreshold = q.rttThreshold := by
  unfold IPQueue.dequeue
  split <;> rfl

/-- What the queue keeps between scans: the limits it was made with, ascending RTTs,
and at most `maxQueueSize` items. -/
structure Kept (size maxRTT : Int) (q : IPQueue Addr) : Prop where
  maxQueueSize_eq : q.maxQueueSize = size
  rttThreshold_eq : q.rttThreshold = maxRTT
  sorted : q.queue.Pairwise fun a b => a.rtt ≤ b.rtt
  bounded : (q.queue.length : Int) ≤ size

theorem kept_newIPQueue (size ttl maxRTT : Int) (positive : 1 ≤ size) :
    Kept size maxRTT (newIPQueue size ttl maxRTT : IPQueue Addr) :=
  ⟨rfl, rfl, .nil, by simp [newIPQueue]; omega⟩

section Kept
variable {sortSlice : List (IPInfo Addr) → List (IPInfo Addr)} {size maxRTT : Int}
  (lawful : SortsByRTT sortSlice) (positive : 1 ≤ size)

include lawful positive in
theorem Kept.enqueue {q : IPQueue Addr} (kept : Kept size maxRTT q) (info : IPInfo Addr) :
    Kept size maxRTT (q.enqueue sortSlice info).2 := by
  have bound : (q.queue.length : Int) ≤ q.maxQueueSize := kept.maxQueueSize_eq ▸ kept.bounded
  refine ⟨?_, ?_, IPQueue.enqueue_sorted lawful q info, ?_⟩
  · rw [IPQueue.enqueue_maxQueueSize, kept.maxQueueSize_eq]
  · rw [IPQueue.enqueue_rttThreshold, kept.rttThreshold_eq]
  · have fits := IPQueue.enqueue_length_le lawful q info (kept.maxQueueSize_eq ▸ positive) bound
    rwa [IPQueue.enqueue_maxQueueSize, kept.maxQueueSize_eq] at fits

theorem Kept.dequeue {q : IPQueue Addr} (kept : Kept size maxRTT q) : Kept size maxRTT q.dequeue.2 where
  maxQueueSize_eq := (IPQueue.dequeue_maxQueueSize q).trans kept.maxQueueSize_eq
  rttThreshold_eq := (IPQueue.dequeue_rttThreshold q).trans kept.rttThreshold_eq
  sorted := IPQueue.dequeue_sorted q kept.sorted
  bounded := le_trans (Int.ofNat_le.mpr (IPQueue.dequeue_length_le q)) kept.bounded

include lawful positive in
theorem Kept.run [Inhabited Addr] {ops : List (Op Addr)} (noExpire : ∀ op ∈ ops, ∀ now, op ≠ .expire now) :
    ∀ {q : IPQueue Addr}, Kept size maxRTT q → Kept size maxRTT (ops.foldl (IPQueue.apply sortSlice) q) := by
  induction ops with
  | nil => exact fun kept => kept
  | cons op rest ih =>
    intro q kept
    have restNoExpire : ∀ op ∈ rest, ∀ now, op ≠ .expire now :=
      fun op' member => noExpire op' (List.mem_cons_of_mem op member)
    -- one step per operation; `Expire` is ruled out
    have stepped : Kept size maxRTT (q.apply sortSlice op) := by
      cases op with
      | enqueue info => exact kept.enqueue lawful positive info
      | dequeue => exact kept.dequeue
      | expire now => exact absurd rfl (noExpire _ List.mem_cons_self now)
    exact ih restNoExpire stepped

end Kept

/-- Scans and takes with no `Expire` in between keep the queue sorted by RTT and within
`maxQueueSize`, and a scan under the threshold that beats no member of a full queue
is then held in the queue or in the reserved queue. -/
theorem enqueue_dequeue_keep_queue [Inhabited Addr] {sortSlice : List (IPInfo Addr) → List (IPInfo Addr)}
    (lawful : SortsByRTT sortSlice) (size ttl maxRTT : Int) (positive : 1 ≤ size) (ops : List (Op Addr))
    (noExpire : ∀ op ∈ ops, ∀ now, op ≠ .expire now) :
    let q := ops.foldl (IPQueue.apply sortSlice) (newIPQueue size ttl maxRTT)
    (q.queue.Pairwise fun a b => a.rtt ≤ b.rtt) ∧ (q.queue.length : Int) ≤ size ∧
      ∀ info, info.rtt ≤ maxRTT → ¬ (size ≤ q.queue.length ∧ ∃ member ∈ q.queue, info.rtt < member.rtt) →
        info ∈ (q.enqueue sortSlice info).2.queue ∨ info ∈ (q.enqueue sortSlice info).2.reserved.items := by
  intro q
  have kept : Kept size maxRTT q := Kept.run lawful positive noExpire (kept_newIPQueue size ttl maxRTT positive)
  refine ⟨kept.sorted, kept.bounded, fun info under notReplacing => ?_⟩
  exact IPQueue.enqueue_holds_item lawful q info (kept.rttThreshold_eq ▸ under)
    (kept.maxQueueSize_eq ▸ notReplacing)

/-- A scan, a take and a second scan into a queue of one. -/
theorem enqueue_dequeue_keep_queue_scans :
    let sortSlice := fun items : List (IPInfo Nat) => items.mergeSort fun a b => decide (a.rtt ≤ b.rtt)
    let ops : List (Op Nat) := [.enqueue ⟨1, 5, 0⟩, .dequeue, .enqueue ⟨2, 3, 0⟩]
    let q := ops.foldl (IPQueue.apply sortSlice) (newIPQueue 1 100 10)
    SortsByRTT sortSlice ∧ (1 : Int) ≤ 1 ∧ (∀ op ∈ ops, ∀ now, op ≠ .expire now) ∧
      (q.queue.Pairwise fun a b => a.rtt ≤ b.rtt) ∧ (q.queue.length : Int) ≤ 1 ∧
      ∀ info, info.rtt ≤ 10 → ¬ ((1 : Int) ≤ q.queue.length ∧ ∃ member ∈ q.queue, info.rtt < member.rtt) →
        info ∈ (q.enqueue sortSlice info).2.queue ∨ info ∈ (q.enqueue sortSlice info).2.reserved.items := by
  intro sortSlice ops q
  have noExpire : ∀ op ∈ ops, ∀ now, op ≠ .expire now := by
    intro op member now
    simp only [ops, List.mem_cons, List.not_mem_nil, or_false] at member
    rcases member with rfl | rfl | rfl <;> simp
  exact ⟨SortsByRTT.mergeSort, le_refl 1, noExpire,
    enqueue_dequeue_keep_queue SortsByRTT.mergeSort 1 100 10 (le_refl 1) ops noExpire⟩

/-- The first `Expire` after three equal scans into a queue of size one: one item
is kept and one of the two reserved items is appended, so the queue holds two. -/
theorem expire_overfills_queue {sortSlice : List (IPInfo Nat) → List (IPInfo Nat)}
    (lawful : SortsByRTT sortSlice) :
    let q := [Op.enqueue ⟨1, 5, 0⟩, .enqueue ⟨2, 5, 0⟩, .enqueue ⟨3, 5, 0⟩, .expire 0].foldl
      (IPQueue.apply sortSlice) (newIPQueue 1 100 10)
    q.maxQueueSize = 1 ∧ q.queue.length = 2 := by
  -- the first scan fills the empty queue
  obtain ⟨first, hfirst⟩ : ∃ q, ((newIPQueue 1 100 10 : IPQueue Nat).enqueue sortSlice
      ⟨1, 5, 0⟩).2 = q := ⟨_, rfl⟩
  have firstFields := IPQueue.enqueue_of_empty sortSlice (newIPQueue 1 100 10) ⟨1, 5, 0⟩
    lawful.nil
  rw [hfirst] at firstFields
  have firstLimits : first.maxQueueSize = 1 ∧ first.maxTTL = 100 ∧ first.rttThreshold = 10 := by
    simp [← hfirst, newIPQueue]
  -- the next two beat no member of the full queue, so both are reserved
  obtain ⟨second, hsecond⟩ : ∃ q, (first.enqueue sortSlice ⟨2, 5, 0⟩).2 = q := ⟨_, rfl⟩
  have secondFields := IPQueue.enqueue_reserves lawful first ⟨2, 5, 0⟩
    (by simp [firstFields.1]) (by simp [firstLimits.2.2]) (by simp [firstFields.1, firstLimits.1])
    (by simp [firstFields.1])
  rw [hsecond, firstFields.1, lawful.singleton, firstFields.2] at secondFields
  have secondLimits : second.maxQueueSize = 1 ∧ second.maxTTL = 100 ∧ second.rttThreshold = 10 := by
    simp [← hsecond, firstLimits]
  obtain ⟨third, hthird⟩ : ∃ q, (second.enqueue sortSlice ⟨3, 5, 0⟩).2 = q := ⟨_, rfl⟩
  have thirdFields := IPQueue.enqueue_reserves lawful second ⟨3, 5, 0⟩
    (by simp [secondFields.1]) (by simp [secondLimits.2.2])
    (by simp [secondFields.1, secondLimits.1]) (by simp [secondFields.1])
  rw [hthird, secondFields.1, lawful.singleton, secondFields.2] at thirdFields
  have thirdLimits : third.maxQueueSize = 1 ∧ third.maxTTL = 100 := by
    simp [← hthird, secondLimits]
  have reserved : third.reserved.items.length = 2 := by
    simp [thirdFields.2, IPInfQueue.enqueue, newIPQueue, lawful.singleton, lawful.length_eq]
  have run : [Op.enqueue ⟨1, 5, 0⟩, .enqueue ⟨2, 5, 0⟩, .enqueue ⟨3, 5, 0⟩, .expire 0].foldl
      (IPQueue.apply sortSlice) (newIPQueue 1 100 10) = third.expire 0 := by
    simp only [List.foldl, IPQueue.apply, hfirst, hsecond, hthird]
  -- `Expire` keeps the first item and appends one of the two reserved ones
  dsimp only
  rw [run, IPQueue.expire_length, thirdFields.1, reserved, thirdLimits.1, thirdLimits.2]
  exact ⟨thirdLimits.1, by decide⟩

/-- A better scan into a full queue is lost: after `Enqueue` it is held neither in
the queue nor in the reserved queue. -/
theorem enqueue_drops_better_item {sortSlice : List (IPInfo Addr) → List (IPInfo Addr)}
    (lawful : SortsByRTT sortSlice) (q : IPQueue Addr) (info : IPInfo Addr)
    (under : info.rtt ≤ q.rttThreshold) (full : q.maxQueueSize ≤ q.queue.length)
    (better : ∃ member ∈ q.queue, info.rtt < member.rtt)
    (fresh : info ∉ q.queue) (unreserved : info ∉ q.reserved.items) :
    info ∉ (q.enqueue sortSlice info).2.queue ∧ info ∉ (q.enqueue sortSlice info).2.reserved.items := by
  obtain ⟨queueEq, reservedEq⟩ := IPQueue.enqueue_of_full_better lawful q info under full better
  rw [queueEq, reservedEq]
  refine ⟨fun kept => fresh ?_, unreserved⟩
  exact (lawful.perm q.queue).mem_iff.mp ((List.dropLast_sublist _).subset kept)

theorem enqueue_drops_better_item_single :
    let sortSlice := fun items : List (IPInfo Nat) => items.mergeSort fun a b => decide (a.rtt ≤ b.rtt)
    let q : IPQueue Nat := { newIPQueue 1 100 10 with queue := [⟨1, 5, 0⟩] }
    let info : IPInfo Nat := ⟨2, 3, 0⟩
    SortsByRTT sortSlice ∧ info.rtt ≤ q.rttThreshold ∧ q.maxQueueSize ≤ q.queue.length ∧
      (∃ member ∈ q.queue, info.rtt < member.rtt) ∧ info ∉ q.queue ∧ info ∉ q.reserved.items ∧
      info ∉ (q.enqueue sortSlice info).2.queue ∧ info ∉ (q.enqueue sortSlice info).2.reserved.items := by
  intro sortSlice q info
  have better : ∃ member ∈ q.queue, info.rtt < member.rtt := ⟨⟨1, 5, 0⟩, by simp [q], by decide⟩
  have fresh : info ∉ q.queue := by simp [q, info]
  have unreserved : info ∉ q.reserved.items := by simp [q, newIPQueue]
  exact ⟨SortsByRTT.mergeSort, by decide, by decide, better, fresh, unreserved,
    enqueue_drops_better_item SortsByRTT.mergeSort q info (by decide) (by decide) better fresh
      unreserved⟩

theorem expire_overfills_queue_mergeSort :
    let sortSlice := fun items : List (IPInfo Nat) => items.mergeSort fun a b => decide (a.rtt ≤ b.rtt)
    SortsByRTT sortSlice ∧
      ([Op.enqueue ⟨1, 5, 0⟩, .enqueue ⟨2, 5, 0⟩, .enqueue ⟨3, 5, 0⟩, .expire 0].foldl
        (IPQueue.apply sortSlice) (newIPQueue 1 100 10)).queue.length = 2 := by
  exact ⟨SortsByRTT.mergeSort, (expire_overfills_queue SortsByRTT.mergeSort).2⟩

end WarpPlus.Scanner
