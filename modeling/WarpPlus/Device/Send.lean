import Mathlib
import WarpPlus.Device.Receive

/-! The nonces `Peer.SendStagedPackets` of `device/send.go` gives the elements it
hands to the encryption queue, over every interleaving with the other calls on
the keypair's counter.

A call takes a container from the staged queue and gives each element a nonce
with an atomic `sendNonce.Add(1) - 1`. A nonce at or past `RejectAfterMessages` is
followed by a `Store` of the limit into the counter and files the element out of
order; the others are kept. At the end of the container the out-of-order
elements are staged again and the kept ones go to the encryption queue, or are
put back while the peer is not running. `ExpireCurrentKeypairs` stores the limit
into the counter and `keepKeyFreshSending` only reads it.

Every atomic operation is a step of its own, so calls interleave between `Add`
and `Store`. Such a call holds the counter one past the limit; with fewer than
`2^13` of them at once the counter stays below `2^64 - 1`, so `Add` never wraps,
and every kept nonce stays below the counter, so each new one is fresh (`Sound`).
The time checks and the handshakes they start only decide when a call returns at
`top`, which a call may do at any time here. The staged queue is also changed by
the TUN reader, `FlushStagedPackets` and calls that took another keypair.
-/

set_option autoImplicit false

namespace WarpPlus.Device.Send

def queueStagedSize : Nat := 128

/-- An outbound element: its packet, which nothing here reads, and the nonce
`SendStagedPackets` last gave it. -/
structure QueueOutboundElement (α : Type) where
  packet : α
  nonce : UInt64
  deriving DecidableEq, Repr

/-- Where one `SendStagedPackets` call is. -/
inductive Pass (α : Type)
  /-- at the label `top` -/
  | top
  /-- at the `select` on the staged queue -/
  | select
  /-- in the loop over a container: the elements left, those kept
  (`elemsContainer.elems[:i]`) and `elemsContainerOOO` -/
  | assigning (todo kept ooo : List (QueueOutboundElement α))
  /-- between the `Add` that gave `elem` a nonce past the limit and the `Store` -/
  | storing (elem : QueueOutboundElement α) (todo kept ooo : List (QueueOutboundElement α))
  | done
  deriving DecidableEq, Repr

variable {α : Type}

def Pass.kept : Pass α → List (QueueOutboundElement α)
  | .assigning _ kept _ => kept
  | .storing _ _ kept _ => kept
  | _ => []

def Pass.outOfOrder : Pass α → List (QueueOutboundElement α)
  | .assigning _ _ ooo => ooo
  | .storing elem _ _ ooo => ooo ++ [elem]
  | _ => []

def Pass.isStoring : Pass α → Bool
  | .storing .. => true
  | _ => false

/-- The sending side of a peer for one keypair. -/
structure Peer (α : Type) where
  /-- `keypair.sendNonce` -/
  sendNonce : UInt64
  /-- `peer.queue.staged` -/
  staged : List (List (QueueOutboundElement α))
  /-- what reached `device.queue.encryption` with this keypair -/
  encryption : List (QueueOutboundElement α)
  /-- what was put back while the peer was not running -/
  dropped : List (QueueOutboundElement α)
  /-- `peer.isRunning` -/
  running : Bool
  /-- the `SendStagedPackets` calls that took this keypair -/
  calls : List (Pass α)
  /-- the elements whose `Add` gave a nonce past the limit -/
  rejected : List (QueueOutboundElement α)
  /-- what was staged again as `elemsContainerOOO` -/
  requeued : List (QueueOutboundElement α)
  deriving DecidableEq, Repr

/-- A new keypair: its counter at zero, no call on it yet. -/
def Peer.init (staged : List (List (QueueOutboundElement α))) (running : Bool) : Peer α :=
  ⟨0, staged, [], [], running, [], [], []⟩

def Peer.setCall (p : Peer α) (i : Nat) (pass : Pass α) : Peer α :=
  { p with calls := p.calls.set i pass }

/-- `StagePackets`: the container goes to the back of the queue; on a full queue the
oldest container is put back first. -/
def stagePackets (staged : List (List (QueueOutboundElement α))) (elems : List (QueueOutboundElement α)) :
    List (List (QueueOutboundElement α)) :=
  if staged.length < queueStagedSize then staged ++ [elems] else staged.tail ++ [elems]

/-- `elem.nonce = keypair.sendNonce.Add(1) - 1` in call `i`, and the branch on it. -/
def Peer.assign (p : Peer α) (i : Nat) (elem : QueueOutboundElement α) (todo kept ooo : List (QueueOutboundElement α)) :
    Peer α :=
  let sendNonce := p.sendNonce + 1
  let elem := { elem with nonce := sendNonce - 1 }
  if elem.nonce ≥ rejectAfterMessages then
    { p with sendNonce, rejected := p.rejected ++ [elem] }.setCall i (.storing elem todo kept ooo)
  else { p with sendNonce }.setCall i (.assigning todo (kept ++ [elem]) ooo)

/-- `keypair.sendNonce.Store(RejectAfterMessages)` in call `i`, which then files
the element out of order. -/
def Peer.store (p : Peer α) (i : Nat) (elem : QueueOutboundElement α) (todo kept ooo : List (QueueOutboundElement α)) :
    Peer α :=
  { p with sendNonce := rejectAfterMessages }.setCall i (.assigning todo kept (ooo ++ [elem]))

/-- The end of a container in call `i`: the out-of-order elements are staged, then
the kept ones are handed on or put back. -/
def Peer.finish (p : Peer α) (i : Nat) (kept ooo : List (QueueOutboundElement α)) : Peer α :=
  let p := if ooo = [] then p else { p with staged := stagePackets p.staged ooo, requeued := p.requeued ++ ooo }
  let next : Pass α := if ooo = [] then .select else .top
  if kept = [] then p.setCall i .top
  else if p.running then { p with encryption := p.encryption ++ kept }.setCall i next
  else { p with dropped := p.dropped ++ kept }.setCall i next

/-- `ExpireCurrentKeypairs`, with this keypair current or next. -/
def Peer.expire (p : Peer α) : Peer α := { p with sendNonce := rejectAfterMessages }

inductive Step : Peer α → Peer α → Prop
  /-- a `SendStagedPackets` call that will take this keypair begins -/
  | begin (p : Peer α) : Step p { p with calls := p.calls ++ [.top] }
  /-- at `top` a call returns: nothing is staged, the device is down, or the
  keypair is gone, used up or too old -/
  | giveUp (p : Peer α) (i : Nat) (current : p.calls[i]? = some .top) : Step p (p.setCall i .done)
  | enter (p : Peer α) (i : Nat) (current : p.calls[i]? = some .top) (waiting : p.staged ≠ [])
      (fresh : p.sendNonce < rejectAfterMessages) : Step p (p.setCall i .select)
  | take (p : Peer α) (i : Nat) (elems : List (QueueOutboundElement α)) (rest : List (List (QueueOutboundElement α)))
      (current : p.calls[i]? = some .select) (queue : p.staged = elems :: rest) :
      Step p ({ p with staged := rest }.setCall i (.assigning elems [] []))
  | leave (p : Peer α) (i : Nat) (current : p.calls[i]? = some .select) (empty : p.staged = []) :
      Step p (p.setCall i .done)
  | assign (p : Peer α) (i : Nat) (elem : QueueOutboundElement α) (todo kept ooo : List (QueueOutboundElement α))
      (current : p.calls[i]? = some (.assigning (elem :: todo) kept ooo)) : Step p (p.assign i elem todo kept ooo)
  | store (p : Peer α) (i : Nat) (elem : QueueOutboundElement α) (todo kept ooo : List (QueueOutboundElement α))
      (current : p.calls[i]? = some (.storing elem todo kept ooo)) : Step p (p.store i elem todo kept ooo)
  | finish (p : Peer α) (i : Nat) (kept ooo : List (QueueOutboundElement α))
      (current : p.calls[i]? = some (.assigning [] kept ooo)) : Step p (p.finish i kept ooo)
  | expire (p : Peer α) : Step p p.expire
  /-- `keepKeyFreshSending` loads the counter and changes nothing on the keypair -/
  | keepKeyFresh (p : Peer α) : Step p p
  /-- the TUN reader, `FlushStagedPackets` and calls on other keypairs change the staged queue -/
  | restage (p : Peer α) (staged : List (List (QueueOutboundElement α))) : Step p { p with staged }
  | setRunning (p : Peer α) (running : Bool) : Step p { p with running }

/-- The calls between their `Add` and their `Store`: nonce assignments in flight. -/
def Peer.inFlight (p : Peer α) : Nat := p.calls.countP Pass.isStoring

/-- The runs from a new keypair with fewer than `2^13` nonce assignments in flight
at any time. -/
inductive Run : Peer α → Prop
  | init (staged : List (List (QueueOutboundElement α))) (running : Bool) : Run (Peer.init staged running)
  | step {p q : Peer α} : Run p → Step p q → q.inFlight < 2 ^ 13 → Run q

/-! ### What the calls hold -/

theorem flatMap_set_perm {β γ : Type} (f : β → List γ) {l : List β} {i : Nat} {a : β} (current : l[i]? = some a)
    (b : β) : (l.flatMap f ++ f b).Perm ((l.set i b).flatMap f ++ f a) := by
  induction l generalizing i with
  | nil => simp at current
  | cons x xs ih =>
    cases i with
    | zero =>
      simp only [List.getElem?_cons_zero, Option.some.injEq] at current
      subst current
      simp only [List.set_cons_zero, List.flatMap_cons, List.append_assoc]
      -- the head's image moves to the back, the new one to the front
      have front : (f x ++ (xs.flatMap f ++ f b)).Perm (f b ++ (f x ++ xs.flatMap f)) := by
        rw [← List.append_assoc]
        exact List.perm_append_comm
      exact front.trans (List.perm_append_comm.append_left _)
    | succ i =>
      simp only [List.getElem?_cons_succ] at current
      simp only [List.set_cons_succ, List.flatMap_cons, List.append_assoc]
      exact (ih current).append_left _

/-- The nonces given out and kept: handed to the encryption queue, or held by a call. -/
def Peer.issued (p : Peer α) : List (QueueOutboundElement α) := p.encryption ++ p.calls.flatMap Pass.kept

theorem issued_setCall {p : Peer α} {i : Nat} {pass : Pass α} (current : p.calls[i]? = some pass) (pass' : Pass α) :
    (p.issued ++ pass'.kept).Perm ((p.setCall i pass').issued ++ pass.kept) := by
  unfold Peer.issued Peer.setCall
  simp only [List.append_assoc]
  exact (flatMap_set_perm Pass.kept current pass').append_left _

theorem inFlight_setCall {p : Peer α} {i : Nat} {pass : Pass α} (current : p.calls[i]? = some pass) (pass' : Pass α) :
    (p.setCall i pass').inFlight + (if pass.isStoring then 1 else 0) =
      p.inFlight + (if pass'.isStoring then 1 else 0) := by
  obtain ⟨inside, found⟩ := List.getElem?_eq_some_iff.mp current
  have held : pass ∈ p.calls := List.mem_of_getElem? current
  unfold Peer.inFlight Peer.setCall
  rw [List.countP_set inside, found]
  by_cases storing : pass.isStoring = true
  · have counted : 0 < p.calls.countP Pass.isStoring := List.countP_pos_iff.mpr ⟨pass, held, storing⟩
    simp only [storing, if_true]
    omega
  · simp only [storing, Bool.false_eq_true, if_false]
    omega

theorem issued_setCall_same {p : Peer α} {i : Nat} {pass : Pass α} (current : p.calls[i]? = some pass)
    (pass' : Pass α) (same : pass'.kept = pass.kept) : (p.setCall i pass').issued.Perm p.issued := by
  have moved := issued_setCall current pass'
  rw [same] at moved
  exact ((List.perm_append_right_iff _).mp moved).symm

theorem issued_setCall_push {p : Peer α} {i : Nat} {pass pass' : Pass α} (current : p.calls[i]? = some pass)
    {e : QueueOutboundElement α} (grown : pass'.kept = pass.kept ++ [e]) :
    (p.setCall i pass').issued.Perm (p.issued ++ [e]) := by
  have moved := issued_setCall current pass'
  rw [grown] at moved
  apply (List.perm_append_right_iff pass.kept).mp
  refine moved.symm.trans ?_
  rw [List.append_assoc]
  exact List.perm_append_comm.append_left _

theorem mem_setCall {p : Peer α} {i : Nat} {pass pass' : Pass α} (member : pass ∈ (p.setCall i pass').calls) :
    pass ∈ p.calls ∨ pass = pass' :=
  List.mem_or_eq_of_mem_set member

theorem reject_toNat : rejectAfterMessages.toNat = 2 ^ 64 - 2 ^ 13 - 1 := rfl

/-! ### The invariant -/

/-- What every run keeps: the counter is at most one past the limit for each
assignment in flight; the kept nonces are distinct, below the counter and below
the limit; what was put back was below the limit; what waits out of order was not. -/
structure Sound (p : Peer α) : Prop where
  counter : p.sendNonce.toNat ≤ rejectAfterMessages.toNat + p.inFlight
  distinct : (p.issued.map (·.nonce)).Nodup
  below : ∀ e ∈ p.issued, e.nonce.toNat < p.sendNonce.toNat ∧ e.nonce.toNat < rejectAfterMessages.toNat
  dropped : ∀ e ∈ p.dropped, e.nonce.toNat < rejectAfterMessages.toNat
  outOfOrder : ∀ pass ∈ p.calls, ∀ e ∈ pass.outOfOrder, rejectAfterMessages.toNat ≤ e.nonce.toNat

theorem sound_init (staged : List (List (QueueOutboundElement α))) (running : Bool) :
    Sound (Peer.init staged running) where
  counter := by simp [Peer.init]
  distinct := by simp [Peer.init, Peer.issued]
  below := by simp [Peer.init, Peer.issued]
  dropped := by simp [Peer.init]
  outOfOrder := by simp [Peer.init]

theorem Sound.congr {p : Peer α} (sound : Sound p) (q : Peer α) (counter : q.sendNonce = p.sendNonce)
    (encryption : q.encryption = p.encryption) (dropped : q.dropped = p.dropped) (calls : q.calls = p.calls) :
    Sound q := by
  have issued : q.issued = p.issued := by rw [Peer.issued, Peer.issued, encryption, calls]
  have inFlight : q.inFlight = p.inFlight := by rw [Peer.inFlight, Peer.inFlight, calls]
  exact ⟨by rw [counter, inFlight]; exact sound.counter, by rw [issued]; exact sound.distinct,
    by rw [issued, counter]; exact sound.below, by rw [dropped]; exact sound.dropped,
    by rw [calls]; exact sound.outOfOrder⟩

theorem Sound.setQuiet {p : Peer α} (sound : Sound p) {i : Nat} {pass : Pass α} (current : p.calls[i]? = some pass)
    (pass' : Pass α) (kept : pass.kept = [] ∧ pass'.kept = []) (idle : pass.isStoring = false ∧ pass'.isStoring = false)
    (clear : pass'.outOfOrder = []) : Sound (p.setCall i pass') := by
  have issued : (p.setCall i pass').issued.Perm p.issued := by
    have := issued_setCall current pass'
    rw [kept.1, kept.2, List.append_nil, List.append_nil] at this
    exact this.symm
  have inFlight := inFlight_setCall current pass'
  simp only [idle.1, idle.2, Bool.false_eq_true, if_false, Nat.add_zero] at inFlight
  refine ⟨?_, (issued.map _).nodup_iff.mpr sound.distinct, fun e member => sound.below e (issued.mem_iff.mp member),
    sound.dropped, fun other member e inside => ?_⟩
  · rw [inFlight]
    exact sound.counter
  · rcases mem_setCall member with old | rfl
    · exact sound.outOfOrder other old e inside
    · simp [clear] at inside

theorem toNat_succ_of_lt {n : UInt64} (small : n.toNat + 1 < 2 ^ 64) : (n + 1).toNat = n.toNat + 1 := by
  rw [UInt64.toNat_add, UInt64.toNat_one]
  exact Nat.mod_eq_of_lt small

theorem Sound.begin {p : Peer α} (sound : Sound p) : Sound { p with calls := p.calls ++ [.top] } := by
  have issued : ({ p with calls := p.calls ++ [.top] } : Peer α).issued = p.issued := by
    simp [Peer.issued, Pass.kept]
  have inFlight : ({ p with calls := p.calls ++ [.top] } : Peer α).inFlight = p.inFlight := by
    simp [Peer.inFlight, List.countP_append, Pass.isStoring]
  refine ⟨by rw [inFlight]; exact sound.counter, by rw [issued]; exact sound.distinct,
    by rw [issued]; exact sound.below, sound.dropped, fun pass member e inside => ?_⟩
  rcases List.mem_append.mp member with old | fresh
  · exact sound.outOfOrder pass old e inside
  · simp only [List.mem_singleton] at fresh
    subst fresh
    simp [Pass.outOfOrder] at inside

theorem Sound.assign {p : Peer α} (sound : Sound p) {i : Nat} {elem : QueueOutboundElement α}
    {todo kept ooo : List (QueueOutboundElement α)} (current : p.calls[i]? = some (.assigning (elem :: todo) kept ooo))
    (bounded : (p.assign i elem todo kept ooo).inFlight < 2 ^ 13) : Sound (p.assign i elem todo kept ooo) := by
  have held : Pass.assigning (elem :: todo) kept ooo ∈ p.calls := List.mem_of_getElem? current
  have nonce : p.sendNonce + 1 - 1 = p.sendNonce := UInt64.add_sub_cancel _ _
  have limit := reject_toNat
  have counter := sound.counter
  -- the counter raised, before the call moves on
  have current' : ({ p with sendNonce := p.sendNonce + 1 } : Peer α).calls[i]? =
      some (.assigning (elem :: todo) kept ooo) := current
  unfold Peer.assign at bounded ⊢
  simp only [nonce] at bounded ⊢
  split_ifs at bounded ⊢ with rejected
  · -- past the limit: the call now holds the counter one further, until its `Store`
    have current' : ({ p with sendNonce := p.sendNonce + 1, rejected := p.rejected ++ [{ elem with nonce := p.sendNonce }] } :
        Peer α).calls[i]? = some (.assigning (elem :: todo) kept ooo) := current
    have inFlight := inFlight_setCall current' (.storing { elem with nonce := p.sendNonce } todo kept ooo)
    simp only [Pass.isStoring, Bool.false_eq_true, if_false, if_true, Nat.add_zero] at inFlight
    have raised := toNat_succ_of_lt (n := p.sendNonce) (by change _ = p.inFlight + 1 at inFlight; omega)
    have issued := issued_setCall_same current' (.storing { elem with nonce := p.sendNonce } todo kept ooo) rfl
    have past : rejectAfterMessages.toNat ≤ p.sendNonce.toNat := UInt64.le_iff_toNat_le.mp rejected
    refine ⟨?_, (issued.map _).nodup_iff.mpr sound.distinct, fun e member => ?_, sound.dropped,
      fun pass member e inside => ?_⟩
    · change (p.sendNonce + 1).toNat ≤ _
      change _ = p.inFlight + 1 at inFlight
      rw [raised]
      omega
    · have := sound.below e (issued.mem_iff.mp member)
      change _ < (p.sendNonce + 1).toNat ∧ _
      rw [raised]
      omega
    · rcases mem_setCall member with old | rfl
      · exact sound.outOfOrder pass old e inside
      · simp only [Pass.outOfOrder, List.mem_append, List.mem_singleton] at inside
        rcases inside with waiting | rfl
        · exact sound.outOfOrder _ held e (by simpa [Pass.outOfOrder] using waiting)
        · exact past
  · -- below the limit: the element keeps the old counter, which nothing kept has
    have inFlight := inFlight_setCall current' (.assigning todo (kept ++ [{ elem with nonce := p.sendNonce }]) ooo)
    simp only [Pass.isStoring, Bool.false_eq_true, if_false, Nat.add_zero] at inFlight
    have fresh : p.sendNonce.toNat < rejectAfterMessages.toNat := by
      have := mt UInt64.le_iff_toNat_le.mpr rejected
      omega
    have raised := toNat_succ_of_lt (n := p.sendNonce) (by omega)
    have issued := @issued_setCall_push _ _ _ _ (.assigning todo (kept ++ [{ elem with nonce := p.sendNonce }]) ooo)
      current' _ rfl
    have newer : ∀ e ∈ p.issued, e.nonce ≠ p.sendNonce := fun e member same => by
      have := (sound.below e member).1
      rw [same] at this
      omega
    refine ⟨?_, ?_, fun e member => ?_, sound.dropped, fun pass member e inside => ?_⟩
    · change (p.sendNonce + 1).toNat ≤ _
      change _ = p.inFlight at inFlight
      rw [raised, inFlight]
      omega
    · apply (issued.map _).nodup_iff.mpr
      rw [List.map_append, List.nodup_append]
      refine ⟨sound.distinct, (List.nodup_cons.mpr ⟨List.not_mem_nil, List.nodup_nil⟩), fun a old b added => ?_⟩
      obtain ⟨e, member, rfl⟩ := List.mem_map.mp old
      simp only [List.map_cons, List.map_nil, List.mem_singleton] at added
      rw [added]
      exact newer e member
    · change _ < (p.sendNonce + 1).toNat ∧ _
      rw [raised]
      rcases List.mem_append.mp (issued.mem_iff.mp member) with old | added
      · have := sound.below e old
        omega
      · simp only [List.mem_singleton] at added
        subst added
        exact ⟨by simp, fresh⟩
    · rcases mem_setCall member with old | rfl
      · exact sound.outOfOrder pass old e inside
      · exact sound.outOfOrder _ held e (by simpa [Pass.outOfOrder] using inside)

theorem Sound.store {p : Peer α} (sound : Sound p) {i : Nat} {elem : QueueOutboundElement α}
    {todo kept ooo : List (QueueOutboundElement α)} (current : p.calls[i]? = some (.storing elem todo kept ooo)) :
    Sound (p.store i elem todo kept ooo) := by
  have held : Pass.storing elem todo kept ooo ∈ p.calls := List.mem_of_getElem? current
  have current' : ({ p with sendNonce := rejectAfterMessages } : Peer α).calls[i]? =
      some (.storing elem todo kept ooo) := current
  have issued := issued_setCall_same current' (.assigning todo kept (ooo ++ [elem])) rfl
  refine ⟨Nat.le_add_right _ _, (issued.map _).nodup_iff.mpr sound.distinct, fun e member => ?_, sound.dropped,
    fun pass member e inside => ?_⟩
  · have := (sound.below e (issued.mem_iff.mp member)).2
    exact ⟨this, this⟩
  · rcases mem_setCall member with old | rfl
    · exact sound.outOfOrder pass old e inside
    · exact sound.outOfOrder _ held e inside

theorem Sound.hand {p : Peer α} (sound : Sound p) {i : Nat} {pass : Pass α} (current : p.calls[i]? = some pass)
    (pass' : Pass α) (quiet : pass'.kept = [] ∧ pass'.isStoring = false ∧ pass'.outOfOrder = [])
    (idle : pass.isStoring = false) : Sound ({ p with encryption := p.encryption ++ pass.kept }.setCall i pass') := by
  have current' : ({ p with encryption := p.encryption ++ pass.kept } : Peer α).calls[i]? = some pass := current
  have issued : ({ p with encryption := p.encryption ++ pass.kept }.setCall i pass').issued.Perm p.issued := by
    have moved := issued_setCall current' pass'
    rw [quiet.1, List.append_nil] at moved
    apply (List.perm_append_right_iff pass.kept).mp
    refine moved.symm.trans ?_
    simp only [Peer.issued, List.append_assoc]
    exact List.perm_append_comm.append_left _
  have inFlight := inFlight_setCall current' pass'
  simp only [idle, quiet.2.1, Bool.false_eq_true, if_false, Nat.add_zero] at inFlight
  refine ⟨?_, (issued.map _).nodup_iff.mpr sound.distinct, fun e member => sound.below e (issued.mem_iff.mp member),
    sound.dropped, fun other member e inside => ?_⟩
  · rw [inFlight]
    exact sound.counter
  · rcases mem_setCall member with old | rfl
    · exact sound.outOfOrder other old e inside
    · simp [quiet.2.2] at inside

theorem Sound.putBack {p : Peer α} (sound : Sound p) {i : Nat} {pass : Pass α} (current : p.calls[i]? = some pass)
    (pass' : Pass α) (quiet : pass'.kept = [] ∧ pass'.isStoring = false ∧ pass'.outOfOrder = [])
    (idle : pass.isStoring = false) : Sound ({ p with dropped := p.dropped ++ pass.kept }.setCall i pass') := by
  have current' : ({ p with dropped := p.dropped ++ pass.kept } : Peer α).calls[i]? = some pass := current
  have moved := issued_setCall current' pass'
  rw [quiet.1, List.append_nil] at moved
  have left : ∀ e ∈ ({ p with dropped := p.dropped ++ pass.kept }.setCall i pass').issued ++ pass.kept, e ∈ p.issued :=
    fun e member => moved.mem_iff.mpr member
  have distinct := ((moved.map (·.nonce)).nodup_iff.mp sound.distinct)
  rw [List.map_append, List.nodup_append] at distinct
  have inFlight := inFlight_setCall current' pass'
  simp only [idle, quiet.2.1, Bool.false_eq_true, if_false, Nat.add_zero] at inFlight
  refine ⟨?_, distinct.1, fun e member => sound.below e (left e (List.mem_append_left _ member)),
    fun e member => ?_, fun other member e inside => ?_⟩
  · rw [inFlight]
    exact sound.counter
  · rcases List.mem_append.mp member with old | put
    · exact sound.dropped e old
    · exact (sound.below e (left e (List.mem_append_right _ put))).2
  · rcases mem_setCall member with old | rfl
    · exact sound.outOfOrder other old e inside
    · simp [quiet.2.2] at inside

theorem Sound.finish {p : Peer α} (sound : Sound p) {i : Nat} {kept ooo : List (QueueOutboundElement α)}
    (current : p.calls[i]? = some (.assigning [] kept ooo)) : Sound (p.finish i kept ooo) := by
  have staged : Sound { p with staged := stagePackets p.staged ooo, requeued := p.requeued ++ ooo } :=
    sound.congr _ rfl rfl rfl rfl
  by_cases calm : ooo = []
  · simp only [Peer.finish, calm, if_true]
    split_ifs with none handed
    · exact sound.setQuiet current .top ⟨none, rfl⟩ ⟨rfl, rfl⟩ rfl
    · exact sound.hand current .select ⟨rfl, rfl, rfl⟩ rfl
    · exact sound.putBack current .select ⟨rfl, rfl, rfl⟩ rfl
  · simp only [Peer.finish, calm, if_false]
    split_ifs with none handed
    · exact staged.setQuiet current .top ⟨none, rfl⟩ ⟨rfl, rfl⟩ rfl
    · exact staged.hand current .top ⟨rfl, rfl, rfl⟩ rfl
    · exact staged.putBack current .top ⟨rfl, rfl, rfl⟩ rfl

theorem Sound.expire {p : Peer α} (sound : Sound p) : Sound p.expire := by
  refine ⟨Nat.le_add_right _ _, sound.distinct, fun e member => ?_, sound.dropped, sound.outOfOrder⟩
  have := (sound.below e member).2
  exact ⟨this, this⟩

theorem Step.sound {p q : Peer α} (step : Step p q) (sound : Sound p) (bounded : q.inFlight < 2 ^ 13) : Sound q := by
  cases step with
  | begin => exact sound.begin
  | giveUp i current => exact sound.setQuiet current .done ⟨rfl, rfl⟩ ⟨rfl, rfl⟩ rfl
  | enter i current => exact sound.setQuiet current .select ⟨rfl, rfl⟩ ⟨rfl, rfl⟩ rfl
  | take i elems rest current =>
    exact (sound.congr { p with staged := rest } rfl rfl rfl rfl).setQuiet current (.assigning elems [] [])
      ⟨rfl, rfl⟩ ⟨rfl, rfl⟩ rfl
  | leave i current => exact sound.setQuiet current .done ⟨rfl, rfl⟩ ⟨rfl, rfl⟩ rfl
  | assign i elem todo kept ooo current => exact sound.assign current bounded
  | store i elem todo kept ooo current => exact sound.store current
  | finish i kept ooo current => exact sound.finish current
  | expire => exact sound.expire
  | keepKeyFresh => exact sound
  | restage staged => exact sound.congr _ rfl rfl rfl rfl
  | setRunning running => exact sound.congr _ rfl rfl rfl rfl

theorem Run.sound {p : Peer α} (run : Run p) : Sound p := by
  induction run with
  | init staged running => exact sound_init staged running
  | step _ step bounded ih => exact step.sound ih bounded

/-! ### What was past the limit is staged again -/

/-- Every element whose `Add` was past the limit has been staged again, or is held out
of order by a call. -/
def Conserved (p : Peer α) : Prop := p.rejected.Perm (p.requeued ++ p.calls.flatMap Pass.outOfOrder)

theorem conserved_init (staged : List (List (QueueOutboundElement α))) (running : Bool) :
    Conserved (Peer.init staged running) := by
  simp [Conserved, Peer.init]

theorem Conserved.setCall {p : Peer α} (conserved : Conserved p) {i : Nat} {pass : Pass α}
    (current : p.calls[i]? = some pass) (pass' : Pass α) (same : pass'.outOfOrder = pass.outOfOrder) :
    Conserved (p.setCall i pass') := by
  have moved := flatMap_set_perm Pass.outOfOrder current pass'
  rw [same] at moved
  exact conserved.trans (((List.perm_append_right_iff _).mp moved).append_left _)

theorem Conserved.release {p q : Peer α} (conserved : Conserved p) {i : Nat} {pass pass' : Pass α}
    (current : p.calls[i]? = some pass) (rejected : q.rejected = p.rejected)
    (requeued : q.requeued = p.requeued ++ pass.outOfOrder) (calls : q.calls = p.calls.set i pass')
    (clear : pass'.outOfOrder = []) : Conserved q := by
  have moved := flatMap_set_perm Pass.outOfOrder current pass'
  rw [clear, List.append_nil] at moved
  unfold Conserved
  rw [rejected, requeued, calls, List.append_assoc]
  exact conserved.trans ((moved.trans List.perm_append_comm).append_left _)

theorem Conserved.assign {p : Peer α} (conserved : Conserved p) {i : Nat} {elem : QueueOutboundElement α}
    {todo kept ooo : List (QueueOutboundElement α)} (current : p.calls[i]? = some (.assigning (elem :: todo) kept ooo)) :
    Conserved (p.assign i elem todo kept ooo) := by
  unfold Peer.assign
  dsimp only
  split_ifs with rejected
  · have moved := flatMap_set_perm Pass.outOfOrder current
      (.storing { elem with nonce := p.sendNonce + 1 - 1 } todo kept ooo)
    simp only [Pass.outOfOrder] at moved
    -- the call holds one element more than before
    have held : ((p.calls.set i (.storing { elem with nonce := p.sendNonce + 1 - 1 } todo kept ooo)).flatMap
        Pass.outOfOrder).Perm (p.calls.flatMap Pass.outOfOrder ++ [{ elem with nonce := p.sendNonce + 1 - 1 }]) := by
      apply (List.perm_append_right_iff ooo).mp
      refine moved.symm.trans ?_
      rw [List.append_assoc]
      exact List.perm_append_comm.append_left _
    unfold Conserved at conserved ⊢
    refine (conserved.append_right _).trans ?_
    rw [List.append_assoc]
    exact held.symm.append_left _
  · exact (show Conserved { p with sendNonce := p.sendNonce + 1 } from conserved).setCall current _ rfl

theorem Conserved.finish {p : Peer α} (conserved : Conserved p) {i : Nat} {kept ooo : List (QueueOutboundElement α)}
    (current : p.calls[i]? = some (.assigning [] kept ooo)) : Conserved (p.finish i kept ooo) := by
  unfold Peer.finish
  by_cases calm : ooo = []
  · subst calm
    simp only [if_true]
    split_ifs <;> exact conserved.release current rfl (List.append_nil _).symm rfl rfl
  · simp only [calm, if_false]
    split_ifs <;> exact conserved.release current rfl rfl rfl rfl

theorem Step.conserved {p q : Peer α} (step : Step p q) (conserved : Conserved p) : Conserved q := by
  cases step with
  | begin =>
    unfold Conserved at conserved ⊢
    simpa [List.flatMap_append, Pass.outOfOrder] using conserved
  | giveUp i current => exact conserved.setCall current .done rfl
  | enter i current => exact conserved.setCall current .select rfl
  | take i elems rest current =>
    exact (show Conserved { p with staged := rest } from conserved).setCall current (.assigning elems [] []) rfl
  | leave i current => exact conserved.setCall current .done rfl
  | assign i elem todo kept ooo current => exact conserved.assign current
  | store i elem todo kept ooo current =>
    exact (show Conserved { p with sendNonce := rejectAfterMessages } from conserved).setCall current
      (.assigning todo kept (ooo ++ [elem])) rfl
  | finish i kept ooo current => exact conserved.finish current
  | expire => exact conserved
  | keepKeyFresh => exact conserved
  | restage staged => exact conserved
  | setRunning running => exact conserved

theorem Run.conserved {p : Peer α} (run : Run p) : Conserved p := by
  induction run with
  | init staged running => exact conserved_init staged running
  | step _ step _ ih => exact step.conserved ih

/-- The steps one call takes on its own within its container: its `Add`s, the `Store`
after one past the limit, and the end of the container. -/
inductive Own (i : Nat) : Peer α → Peer α → Prop
  | assign (p : Peer α) (elem : QueueOutboundElement α) (todo kept ooo : List (QueueOutboundElement α))
      (current : p.calls[i]? = some (.assigning (elem :: todo) kept ooo)) : Own i p (p.assign i elem todo kept ooo)
  | store (p : Peer α) (elem : QueueOutboundElement α) (todo kept ooo : List (QueueOutboundElement α))
      (current : p.calls[i]? = some (.storing elem todo kept ooo)) : Own i p (p.store i elem todo kept ooo)
  | finish (p : Peer α) (kept ooo : List (QueueOutboundElement α))
      (current : p.calls[i]? = some (.assigning [] kept ooo)) : Own i p (p.finish i kept ooo)

theorem assign_current {p : Peer α} {i : Nat} {elem : QueueOutboundElement α} {todo kept ooo : List (QueueOutboundElement α)}
    (current : p.calls[i]? = some (.assigning (elem :: todo) kept ooo)) :
    ∃ e, (p.assign i elem todo kept ooo).calls[i]? = some (.assigning todo (kept ++ [e]) ooo) ∨
      (p.assign i elem todo kept ooo).calls[i]? = some (.storing e todo kept ooo) := by
  have inside := (List.getElem?_eq_some_iff.mp current).1
  refine ⟨{ elem with nonce := p.sendNonce + 1 - 1 }, ?_⟩
  unfold Peer.assign
  dsimp only
  split_ifs
  · exact .inr (by simp [Peer.setCall, inside])
  · exact .inl (by simp [Peer.setCall, inside])

theorem store_current {p : Peer α} {i : Nat} {elem : QueueOutboundElement α} {todo kept ooo : List (QueueOutboundElement α)}
    (current : p.calls[i]? = some (.storing elem todo kept ooo)) :
    (p.store i elem todo kept ooo).calls[i]? = some (.assigning todo kept (ooo ++ [elem])) := by
  simp [Peer.store, Peer.setCall, (List.getElem?_eq_some_iff.mp current).1]

theorem requeued_finish (p : Peer α) (i : Nat) (kept : List (QueueOutboundElement α))
    {ooo : List (QueueOutboundElement α)} : ∀ e ∈ ooo, e ∈ (p.finish i kept ooo).requeued := by
  intro e member
  unfold Peer.finish
  simp only [List.ne_nil_of_mem member, if_false]
  split_ifs <;> simp [Peer.setCall, member]

theorem Own.requeues (i : Nat) (todo : List (QueueOutboundElement α)) :
    ∀ (p : Peer α) (kept ooo : List (QueueOutboundElement α)), p.calls[i]? = some (.assigning todo kept ooo) →
      ∃ q, Relation.ReflTransGen (Own i) p q ∧ ∀ e ∈ ooo, e ∈ q.requeued := by
  induction todo with
  | nil =>
    intro p kept ooo current
    exact ⟨_, .single (.finish p kept ooo current), requeued_finish p i kept⟩
  | cons elem todo ih =>
    intro p kept ooo current
    obtain ⟨e, keptIt | storing⟩ := assign_current current
    · obtain ⟨q, path, staged⟩ := ih _ _ _ keptIt
      exact ⟨q, .head (.assign p elem todo kept ooo current) path, staged⟩
    · -- past the limit: the `Store` files the element out of order
      obtain ⟨q, path, staged⟩ := ih _ _ _ (store_current storing)
      exact ⟨q, .head (.assign p elem todo kept ooo current) (.head (.store _ e todo kept ooo storing) path),
        fun x member => staged x (List.mem_append_left _ member)⟩

theorem Own.requeues_held {p : Peer α} {i : Nat} {pass : Pass α} (current : p.calls[i]? = some pass) :
    ∃ q, Relation.ReflTransGen (Own i) p q ∧ ∀ e ∈ pass.outOfOrder, e ∈ q.requeued := by
  cases pass with
  | assigning todo kept ooo => exact Own.requeues i todo p kept ooo current
  | storing elem todo kept ooo =>
    obtain ⟨q, path, staged⟩ := Own.requeues i todo _ kept (ooo ++ [elem]) (store_current current)
    exact ⟨q, .head (.store p elem todo kept ooo current) path, staged⟩
  | top | select | done => exact ⟨p, .refl, by simp [Pass.outOfOrder]⟩

theorem finish_stages (p : Peer α) (i : Nat) (kept : List (QueueOutboundElement α))
    {ooo : List (QueueOutboundElement α)} (waiting : ooo ≠ []) : ooo ∈ (p.finish i kept ooo).staged := by
  unfold Peer.finish stagePackets
  simp only [waiting, if_false]
  split_ifs <;> simp [Peer.setCall]

/-- For every run from a new keypair with fewer than `2^13` nonce assignments in
flight at once: the elements handed to the encryption queue with the keypair carry
pairwise distinct nonces below `RejectAfterMessages`, and those put back carry
nonces below it too; an element held out of order has a nonce at or past the
limit. Every element whose `Add` was past the limit has been staged again or is held
out of order by a call, and each call stages again, by its own steps, everything it
holds out of order; the end of a container puts it in the staged queue. -/
theorem sendStagedPackets_nonces_unique {p : Peer α} (run : Run p) :
    (p.encryption.map (·.nonce)).Nodup ∧ (∀ e ∈ p.encryption, e.nonce < rejectAfterMessages) ∧
      (∀ e ∈ p.dropped, e.nonce < rejectAfterMessages) ∧
      (∀ pass ∈ p.calls, ∀ e ∈ pass.outOfOrder, rejectAfterMessages ≤ e.nonce) ∧
      p.rejected.Perm (p.requeued ++ p.calls.flatMap Pass.outOfOrder) ∧
      (∀ i pass, p.calls[i]? = some pass →
        ∃ q, Relation.ReflTransGen (Own i) p q ∧ ∀ e ∈ pass.outOfOrder, e ∈ q.requeued) ∧
      ∀ i kept ooo, p.calls[i]? = some (.assigning [] kept ooo) → ooo ≠ [] → ooo ∈ (p.finish i kept ooo).staged := by
  have sound := run.sound
  have handed : ∀ e ∈ p.encryption, e ∈ p.issued := fun e member => List.mem_append_left _ member
  have distinct := sound.distinct
  rw [Peer.issued, List.map_append, List.nodup_append] at distinct
  exact ⟨distinct.1, fun e member => UInt64.lt_iff_toNat_lt.mpr (sound.below e (handed e member)).2,
    fun e member => UInt64.lt_iff_toNat_lt.mpr (sound.dropped e member),
    fun pass member e inside => UInt64.le_iff_toNat_le.mpr (sound.outOfOrder pass member e inside),
    run.conserved, fun i pass current => Own.requeues_held current,
    fun i kept _ _ waiting => finish_stages p i kept waiting⟩

/-- One element staged for a new keypair: a call takes it, gives it nonce 0 and
hands it on. -/
theorem sendStagedPackets_nonces_unique_oneElement :
    let p : Peer Nat := ⟨1, [], [⟨7, 0⟩], [], true, [.select], [], []⟩
    Run p ∧ (p.encryption.map (·.nonce)).Nodup ∧ (∀ e ∈ p.encryption, e.nonce < rejectAfterMessages) ∧
      (∀ e ∈ p.dropped, e.nonce < rejectAfterMessages) ∧
      (∀ pass ∈ p.calls, ∀ e ∈ pass.outOfOrder, rejectAfterMessages ≤ e.nonce) ∧
      p.rejected.Perm (p.requeued ++ p.calls.flatMap Pass.outOfOrder) ∧
      (∀ i pass, p.calls[i]? = some pass →
        ∃ q, Relation.ReflTransGen (Own i) p q ∧ ∀ e ∈ pass.outOfOrder, e ∈ q.requeued) ∧
      ∀ i kept ooo, p.calls[i]? = some (.assigning [] kept ooo) → ooo ≠ [] → ooo ∈ (p.finish i kept ooo).staged := by
  intro p
  have start := Run.init [[(⟨7, 0⟩ : QueueOutboundElement Nat)]] true
  have begun := start.step (Step.begin _) (by decide)
  have entered := begun.step (Step.enter _ 0 rfl (by decide) (by decide)) (by decide)
  have taken := entered.step (Step.take _ 0 [⟨7, 0⟩] [] rfl rfl) (by decide)
  have assigned := taken.step (Step.assign _ 0 ⟨7, 0⟩ [] [] [] rfl) (by decide)
  have finished := assigned.step (Step.finish _ 0 [⟨7, 0⟩] [] rfl) (by decide)
  have reached : Run p := finished
  exact ⟨reached, sendStagedPackets_nonces_unique reached⟩

end WarpPlus.Device.Send