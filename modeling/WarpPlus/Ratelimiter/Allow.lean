import Mathlib

/-! The per-address token bucket of `ratelimiter/ratelimiter.go`.

An entry holds credit in nanoseconds and the time it was last seen. `Allow` adds
the time elapsed since then (`Time.Sub`, saturated to `int64`, added in `int64`),
caps the credit at `maxTokens`, and admits a packet when more than `packetCost`
remains; an address without an entry gets one that has already paid for this
packet. `cleanup` deletes the entries idle for more than `garbageCollectTime`.
Both read the one clock `timeNow`.

While that clock does not run back, every window of `d` nanoseconds sees at most
`packetsBurstable + d / packetCost` admissions for an address
(`allow_within_rate`). The invariant is `Budget`: the admissions counted in the
window, at `packetCost` each, plus the entry's non-negative credit, stay within
`maxTokens` plus the time from the window's start to the entry's last time. An
entry is only deleted after an idle second, which is more than its credit could
have bought, and that pays for the fresh entry.
-/

set_option autoImplicit false
set_option linter.dupNamespace false

namespace WarpPlus.Ratelimiter

def packetsPerSecond : Int := 20

def packetsBurstable : Int := 5

def garbageCollectTime : Int := 1000000000

def packetCost : Int := 1000000000 / packetsPerSecond

def maxTokens : Int := packetCost * packetsBurstable

theorem packetCost_eq : packetCost = 50000000 := by decide

theorem maxTokens_eq : maxTokens = 250000000 := by decide

/-- `Time.Sub`: the difference, saturated to the range of `time.Duration`. -/
def sub (t u : Int) : Int := max (-2 ^ 63) (min (t - u) (2 ^ 63 - 1))

/-- `int64` addition wraps. -/
def wrap64 (x : Int) : Int := (x + 2 ^ 63) % 2 ^ 64 - 2 ^ 63

structure RatelimiterEntry where
  lastTime : Int
  tokens : Int
  deriving DecidableEq, Repr

/-- The table, one entry or none for each address. -/
structure Ratelimiter (α : Type) where
  table : α → Option RatelimiterEntry

/-- After `Init`: an empty table. -/
def Ratelimiter.init {α : Type} : Ratelimiter α := ⟨fun _ => none⟩

/-- What `Allow` does to the entry of its address at time `now`, and its answer. -/
def allowEntry (now : Int) : Option RatelimiterEntry → RatelimiterEntry × Bool
  -- a new entry pays for the packet it admits
  | none => (⟨now, maxTokens - packetCost⟩, true)
  | some entry =>
    let tokens := wrap64 (entry.tokens + sub now entry.lastTime)
    let tokens := if tokens > maxTokens then maxTokens else tokens
    if tokens > packetCost then (⟨now, tokens - packetCost⟩, true) else (⟨now, tokens⟩, false)

/-- `cleanup` at time `now`. Whether the table is left empty only stops the
collector's ticker, which the calls below leave free. -/
def Ratelimiter.cleanup {α : Type} (rate : Ratelimiter α) (now : Int) : Ratelimiter α :=
  ⟨fun ip => (rate.table ip).filter fun entry => !(sub now entry.lastTime > garbageCollectTime)⟩

@[simp] theorem cleanup_table {α : Type} (rate : Ratelimiter α) (ip : α) (now : Int) :
    (rate.cleanup now).table ip = (rate.table ip).filter fun entry => !(sub now entry.lastTime > garbageCollectTime) :=
  rfl

variable {α : Type} [DecidableEq α]

/-- `Allow(ip)` at time `now`: the limiter after it, and the answer. -/
def Ratelimiter.allow (rate : Ratelimiter α) (ip : α) (now : Int) : Ratelimiter α × Bool :=
  let (entry, ok) := allowEntry now (rate.table ip)
  (⟨Function.update rate.table ip (some entry)⟩, ok)

inductive Call (α : Type)
  | allow (ip : α) (now : Int)
  | cleanup (now : Int)

/-- The clock value a call reads. -/
def Call.now {β : Type} : Call β → Int
  | .allow _ now => now
  | .cleanup now => now

/-- The answers of a run's `Allow` calls, each with its address and time. -/
def Ratelimiter.run (rate : Ratelimiter α) : List (Call α) → List (α × Int × Bool)
  | [] => []
  | .allow ip now :: calls => (ip, now, (rate.allow ip now).2) :: (rate.allow ip now).1.run calls
  | .cleanup now :: calls => (rate.cleanup now).run calls

/-- How many `Allow` calls for `ip` within `[start, start + d]` returned true. -/
def admittedIn (ip : α) (start : Int) (d : Nat) (answers : List (α × Int × Bool)) : Nat :=
  (answers.filter fun answer => answer.1 = ip ∧ start ≤ answer.2.1 ∧ answer.2.1 ≤ start + d ∧ answer.2.2).length

@[simp] theorem allow_table_self (rate : Ratelimiter α) (ip : α) (now : Int) :
    (rate.allow ip now).1.table ip = some (allowEntry now (rate.table ip)).1 := by
  simp [Ratelimiter.allow]

@[simp] theorem allow_table_ne (rate : Ratelimiter α) {ip other : α} (now : Int) (ne : other ≠ ip) :
    (rate.allow ip now).1.table other = rate.table other := by
  simp [Ratelimiter.allow, Function.update_of_ne ne]

theorem allowEntry_none (now : Int) : allowEntry now none = (⟨now, maxTokens - packetCost⟩, true) := rfl

@[simp] theorem allow_answer (rate : Ratelimiter α) (ip : α) (now : Int) :
    (rate.allow ip now).2 = (allowEntry now (rate.table ip)).2 := rfl

/-! ### Arithmetic of the clock and the credit -/

theorem sub_of_le {t u : Int} (later : u ≤ t) : 0 ≤ sub t u ∧ sub t u ≤ t - u := by
  unfold sub
  omega

theorem wrap64_ge (x : Int) : -2 ^ 63 ≤ wrap64 x := by
  unfold wrap64
  omega

theorem wrap64_le {x : Int} (above : -2 ^ 63 ≤ x) : wrap64 x ≤ x := by
  unfold wrap64
  omega

/-- The credit an entry can hold: an `int64` no larger than `maxTokens`. -/
def Credit (tokens : Int) : Prop := -2 ^ 63 ≤ tokens ∧ tokens ≤ maxTokens

theorem allowEntry_some {entry : RatelimiterEntry} {now : Int} (later : entry.lastTime ≤ now)
    (credit : Credit entry.tokens) :
    ∃ refill, -2 ^ 63 ≤ refill ∧ refill ≤ maxTokens ∧ refill ≤ entry.tokens + (now - entry.lastTime) ∧
      (allowEntry now (some entry)).1.lastTime = now ∧
      ((packetCost < refill ∧ (allowEntry now (some entry)).2 = true ∧
          (allowEntry now (some entry)).1.tokens = refill - packetCost) ∨
        (refill ≤ packetCost ∧ (allowEntry now (some entry)).2 = false ∧
          (allowEntry now (some entry)).1.tokens = refill)) := by
  have elapsed := sub_of_le later
  have cap := maxTokens_eq
  have low := wrap64_ge (entry.tokens + sub now entry.lastTime)
  have high := wrap64_le (x := entry.tokens + sub now entry.lastTime) (by unfold Credit at credit; omega)
  -- the credit after the refill and the cap
  set refill := if wrap64 (entry.tokens + sub now entry.lastTime) > maxTokens then maxTokens
      else wrap64 (entry.tokens + sub now entry.lastTime) with refill_def
  have capped : -2 ^ 63 ≤ refill ∧ refill ≤ maxTokens ∧ refill ≤ entry.tokens + (now - entry.lastTime) := by
    rw [refill_def]
    split_ifs <;> unfold Credit at credit <;> omega
  have stamped : (allowEntry now (some entry)).1.lastTime = now := by
    simp only [allowEntry]
    split_ifs <;> rfl
  refine ⟨refill, capped.1, capped.2.1, capped.2.2, stamped, ?_⟩
  simp only [allowEntry, ← refill_def]
  by_cases admits : refill > packetCost
  · exact .inl ⟨admits, by simp [admits], by simp [admits]⟩
  · exact .inr ⟨by omega, by simp [admits], by simp [admits]⟩

/-! ### The budget of one address in a window -/

section Window

variable (start : Int)

/-- The budget of one address in the window from `start`, after `count`
admissions counted in it, when the clock reads `now`. -/
def Budget (count : Nat) (now : Int) : Option RatelimiterEntry → Prop
  | none => count = 0 ∨ count * packetCost ≤ now - start
  | some entry => entry.lastTime ≤ now ∧ Credit entry.tokens ∧ (entry.lastTime < start → count = 0) ∧
      (start ≤ entry.lastTime → count * packetCost + max entry.tokens 0 ≤ maxTokens + (entry.lastTime - start))

variable {start}

theorem budget_none (now : Int) : Budget start 0 now none := .inl rfl

theorem Budget.later {count : Nat} {now t : Int} {slot : Option RatelimiterEntry}
    (budget : Budget start count now slot) (later : now ≤ t) : Budget start count t slot := by
  cases slot with
  | none =>
    rcases budget with zero | spent
    · exact .inl zero
    · exact .inr (by omega)
  | some entry =>
    obtain ⟨seen, credit, before, within⟩ := budget
    exact ⟨by omega, credit, before, within⟩

theorem Budget.fewer {count fewer : Nat} {now : Int} {slot : Option RatelimiterEntry} (le : fewer ≤ count)
    (budget : Budget start count now slot) : Budget start fewer now slot := by
  have cost : (0 : Int) < packetCost := by decide
  have spent : (fewer : Int) * packetCost ≤ count * packetCost :=
    Int.mul_le_mul_of_nonneg_right (by omega) (by omega)
  cases slot with
  | none =>
    rcases budget with zero | within
    · exact .inl (by omega)
    · exact .inr (by omega)
  | some entry =>
    obtain ⟨seen, credit, before, within⟩ := budget
    exact ⟨seen, credit, fun early => by have := before early; omega, fun late => by have := within late; omega⟩

theorem Budget.bound {count : Nat} {now : Int} {slot : Option RatelimiterEntry} (d : Nat)
    (budget : Budget start count now slot) (inside : now ≤ start + d) : count * packetCost ≤ maxTokens + d := by
  have cap := maxTokens_eq
  cases slot with
  | none =>
    rcases budget with zero | within
    · subst zero
      omega
    · omega
  | some entry =>
    obtain ⟨seen, -, before, within⟩ := budget
    by_cases late : start ≤ entry.lastTime
    · have := within late
      omega
    · have zero := before (by omega)
      subst zero
      omega

theorem cost_succ (count : Nat) : ((count + 1 : Nat) : Int) * packetCost = count * packetCost + packetCost := by
  rw [packetCost_eq]
  omega

theorem Budget.allowEntry {count : Nat} {now t : Int} {slot : Option RatelimiterEntry}
    (budget : Budget start count now slot) (later : now ≤ t) :
    Budget start (if start ≤ t ∧ (allowEntry t slot).2 = true then count + 1 else count) t
      (some (allowEntry t slot).1) := by
  have cap := maxTokens_eq
  have cost := packetCost_eq
  have paid := cost_succ count
  cases slot with
  | none =>
    -- a fresh entry: one admission and `maxTokens - packetCost` of credit
    have spent : count = 0 ∨ count * packetCost ≤ t - start := budget.later later
    have fresh : Credit (maxTokens - packetCost) := by unfold Credit; omega
    have nonneg : (0 : Int) ≤ count * packetCost := Int.mul_nonneg (by omega) (by omega)
    rw [allowEntry_none]
    refine ⟨Int.le_refl t, fresh, fun early => ?_, fun late => ?_⟩
    · dsimp only at early ⊢
      rw [if_neg (by omega)]
      rcases spent with zero | within
      · exact zero
      · omega
    · dsimp only at late ⊢
      rw [if_pos ⟨late, rfl⟩, paid]
      rcases spent with zero | within
      · subst zero
        omega
      · omega
  | some entry =>
    obtain ⟨seen, credit, before, within⟩ := budget
    obtain ⟨refill, low, capped, gained, stamped, outcome⟩ := @allowEntry_some entry t (by omega) credit
    have tokens := credit
    unfold Credit at tokens
    -- the credit after the refill, with what was counted, fits the window so far
    have fits : start ≤ t → count * packetCost + max refill 0 ≤ maxTokens + (t - start) := by
      intro late
      by_cases seenLate : start ≤ entry.lastTime
      · have := within seenLate
        omega
      · have zero := before (by omega)
        subst zero
        omega
    rcases outcome with ⟨admits, answer, kept⟩ | ⟨refused, answer, kept⟩
    · refine ⟨by omega, ?_, fun early => ?_, fun late => ?_⟩
      · rw [kept]
        unfold Credit
        omega
      · rw [if_neg (by omega)]
        exact before (by omega)
      · rw [stamped] at late
        rw [if_pos ⟨late, answer⟩, paid, stamped, kept]
        have := fits late
        omega
    · refine ⟨by omega, ?_, fun early => ?_, fun late => ?_⟩
      · rw [kept]
        unfold Credit
        omega
      · rw [if_neg (by omega)]
        exact before (by omega)
      · rw [stamped] at late
        rw [if_neg (by simp [answer]), stamped, kept]
        exact fits late

/-- A `cleanup` at `t` keeps the budget: it deletes an entry only after an idle
second, longer than the credit of a full bucket. -/
theorem Budget.cleanup {count : Nat} {now t : Int} {slot : Option RatelimiterEntry}
    (budget : Budget start count now slot) (later : now ≤ t) :
    Budget start count t (slot.filter fun entry => !(sub t entry.lastTime > garbageCollectTime)) := by
  cases slot with
  | none => exact budget.later later
  | some entry =>
    by_cases idle : sub t entry.lastTime > garbageCollectTime
    · obtain ⟨seen, -, before, within⟩ := budget
      have elapsed := sub_of_le (show entry.lastTime ≤ t by omega)
      have cap := maxTokens_eq
      have second : garbageCollectTime = 1000000000 := rfl
      simp only [Option.filter_some, idle, decide_true, Bool.not_true, Bool.false_eq_true, if_false]
      by_cases late : start ≤ entry.lastTime
      · have := within late
        exact .inr (by omega)
      · exact .inl (before (by omega))
    · simp only [Option.filter_some, idle, decide_false, Bool.not_false, if_true]
      exact budget.later later

theorem admittedIn_cons (ip : α) (d : Nat) (answer : α × Int × Bool) (answers : List (α × Int × Bool)) :
    admittedIn ip start d (answer :: answers) =
      (if answer.1 = ip ∧ start ≤ answer.2.1 ∧ answer.2.1 ≤ start + d ∧ answer.2.2 = true then 1 else 0) +
        admittedIn ip start d answers := by
  unfold admittedIn
  by_cases counted : answer.1 = ip ∧ start ≤ answer.2.1 ∧ answer.2.1 ≤ start + d ∧ answer.2.2 = true
  · rw [List.filter_cons_of_pos (by simpa using counted), if_pos counted, List.length_cons]
    omega
  · rw [List.filter_cons_of_neg (by simpa using counted), if_neg counted]
    omega

theorem count_ite_le {counted admitted : Prop} [Decidable counted] [Decidable admitted]
    (weaker : counted → admitted) (count : Nat) :
    (if counted then count + 1 else count) ≤ if admitted then count + 1 else count := by
  by_cases c : counted
  · rw [if_pos c, if_pos (weaker c)]
  · rw [if_neg c]
    split_ifs <;> omega

theorem count_ite (counted : Prop) [Decidable counted] (count more : Nat) :
    (if counted then count + 1 else count) + more = count + ((if counted then 1 else 0) + more) := by
  split_ifs <;> omega

theorem run_within (ip : α) (d : Nat) (calls : List (Call α)) (clock : calls.Pairwise fun a b => a.now ≤ b.now) :
    ∀ (rate : Ratelimiter α) (count : Nat) (now : Int), (∀ call ∈ calls, now ≤ call.now) →
      Budget start count now (rate.table ip) → count * packetCost ≤ maxTokens + d →
      ((count + admittedIn ip start d (rate.run calls) : Nat) : Int) * packetCost ≤ maxTokens + d := by
  induction calls with
  | nil =>
    intro rate count now _ _ within
    simpa [Ratelimiter.run, admittedIn] using within
  | cons call calls ih =>
    rw [List.pairwise_cons] at clock
    obtain ⟨first, rest⟩ := clock
    intro rate count now after budget within
    have atCall := after call List.mem_cons_self
    cases call with
    | allow other t =>
      simp only [Call.now] at atCall first
      -- the call's admission counts when it is for `ip` and inside the window
      have next : Budget start (if other = ip ∧ start ≤ t ∧ t ≤ start + d ∧ (rate.allow other t).2 = true
          then count + 1 else count) t ((rate.allow other t).1.table ip) := by
        by_cases same : other = ip
        · subst same
          rw [allow_table_self, allow_answer]
          exact Budget.fewer (count_ite_le (fun counted => ⟨counted.2.1, counted.2.2.2⟩) count)
            (budget.allowEntry atCall)
        · rw [allow_table_ne _ _ (Ne.symm same), if_neg (fun counted => same counted.1)]
          exact budget.later atCall
      have nextWithin : ((if other = ip ∧ start ≤ t ∧ t ≤ start + d ∧ (rate.allow other t).2 = true
          then count + 1 else count : Nat) : Int) * packetCost ≤ maxTokens + d := by
        split_ifs at next ⊢ with counted
        · exact next.bound d counted.2.2.1
        · exact within
      have := ih rest (rate.allow other t).1 _ t first next nextWithin
      rw [count_ite] at this
      rw [Ratelimiter.run, admittedIn_cons]
      exact this
    | cleanup t =>
      simp only [Call.now] at atCall first
      have next := budget.cleanup atCall
      rw [← cleanup_table] at next
      rw [Ratelimiter.run]
      exact ih rest (rate.cleanup t) count t first next within

end Window

/-- For every address and every run of `Allow` and `cleanup` calls on one clock that
does not run back, every window of `d` nanoseconds holds at most
`packetsBurstable + d / packetCost` calls for that address that returned true. -/
theorem allow_within_rate (ip : α) (calls : List (Call α)) (clock : calls.Pairwise fun a b => a.now ≤ b.now)
    (start : Int) (d : Nat) :
    (admittedIn ip start d (Ratelimiter.init.run calls) : Int) ≤ packetsBurstable + d / packetCost := by
  have spent : ((0 + admittedIn ip start d (Ratelimiter.init.run calls) : Nat) : Int) * packetCost ≤
      maxTokens + d := by
    cases calls with
    | nil =>
      have none : admittedIn ip start d (Ratelimiter.init.run []) = 0 := rfl
      rw [none, packetCost_eq, maxTokens_eq]
      omega
    | cons first rest =>
      have later := (List.pairwise_cons.mp clock).1
      apply run_within ip d (first :: rest) clock Ratelimiter.init 0 first.now
      · intro call mem
        rcases List.mem_cons.mp mem with same | inRest
        · subst same
          exact Int.le_refl _
        · exact later call inRest
      · exact budget_none _
      · rw [maxTokens_eq]
        omega
  have burst : packetsBurstable = 5 := rfl
  rw [packetCost_eq, maxTokens_eq] at spent
  rw [burst, packetCost_eq]
  omega

/-- A burst at one instant admits four: a new entry pays for its first packet, and
the credit must stay above `packetCost` for each further one. -/
example : admittedIn 1 0 0 ((Ratelimiter.init : Ratelimiter Nat).run
    [.allow 1 0, .allow 1 0, .allow 1 0, .allow 1 0, .allow 1 0]) = 4 := by
  decide

/-- Five calls at one instant, a collection two seconds on, and a call then. -/
theorem allow_within_rate_burst :
    let calls : List (Call Nat) :=
      [.allow 1 0, .allow 1 0, .allow 1 0, .allow 1 0, .allow 1 0, .cleanup 2000000000, .allow 1 2000000000]
    calls.Pairwise (fun a b => a.now ≤ b.now) ∧
      (admittedIn 1 0 0 (Ratelimiter.init.run calls) : Int) ≤ packetsBurstable + (0 : Nat) / packetCost := by
  intro calls
  have clock : calls.Pairwise (fun a b => a.now ≤ b.now) := by decide
  exact ⟨clock, allow_within_rate 1 calls clock 0 0⟩

end WarpPlus.Ratelimiter
