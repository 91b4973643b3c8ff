import Mathlib
import WarpPlus.Semantics.Decimal

/-! `host:port` strings as Go's `net` and `net/url` packages read and write them.

`splitHostPort` is `net.SplitHostPort`: the port follows the last colon, and a host
that contains colons must be bracketed. `joinHostPort` is `net.JoinHostPort`,
which brackets a host containing a colon. `urlSplitHostPort` is the laxer
`url.splitHostPort` behind `URL.Hostname` and `URL.Port`: it takes the text after
the last colon as the port only when it is all digits, and strips brackets.

`splitHostPort_joinHostPort` is the round trip: a host without brackets and a
port without colons or brackets come back from the string they make.
-/

set_option autoImplicit false

namespace GoText

def colon : UInt8 := 58

def openBracket : UInt8 := 91

def closeBracket : UInt8 := 93

/-- `bytealg.IndexByteString`: the first index of `b`. -/
def indexByte (s : List UInt8) (b : UInt8) : Option Nat :=
  if b ∈ s then some (s.idxOf b) else none

/-- `bytealg.LastIndexByteString`: the last index of `b`. -/
def lastIndexByte (s : List UInt8) (b : UInt8) : Option Nat :=
  if b ∈ s then some (s.length - 1 - s.reverse.idxOf b) else none

/-- `net.SplitHostPort`. -/
def splitHostPort (hostport : List UInt8) : Option (List UInt8 × List UInt8) :=
  match lastIndexByte hostport colon with
  | none => none
  | some i =>
    -- the host, and where no `[` resp. `]` may follow
    let found : Option (List UInt8 × Nat × Nat) :=
      if hostport.head? = some openBracket then
        match indexByte hostport closeBracket with
        | none => none
        | some close => if close + 1 = i then some ((hostport.take close).drop 1, 1, close + 1) else none
      else
        let host := hostport.take i
        if colon ∈ host then none else some (host, 0, 0)
    match found with
    | none => none
    | some (host, j, k) =>
      if openBracket ∈ hostport.drop j then none
      else if closeBracket ∈ hostport.drop k then none
      else some (host, hostport.drop (i + 1))

/-- `net.JoinHostPort`. -/
def joinHostPort (host port : List UInt8) : List UInt8 :=
  if colon ∈ host then openBracket :: host ++ closeBracket :: colon :: port
  else host ++ colon :: port

/-- `url.validOptionalPort`: empty, or a colon followed by digits. -/
def validOptionalPort : List UInt8 → Bool
  | [] => true
  | c :: digits => c == colon && digits.all isDigit

/-- `url.splitHostPort`. -/
def urlSplitHostPort (hostPort : List UInt8) : List UInt8 × List UInt8 :=
  let (host, port) := match lastIndexByte hostPort colon with
    | some at_ =>
      if validOptionalPort (hostPort.drop at_) then (hostPort.take at_, hostPort.drop (at_ + 1))
      else (hostPort, [])
    | none => (hostPort, [])
  if host.head? = some openBracket ∧ host.getLast? = some closeBracket then ((host.drop 1).dropLast, port)
  else (host, port)

/-- `URL.Hostname`. -/
def hostname (host : List UInt8) : List UInt8 := (urlSplitHostPort host).1

/-- `URL.Port`. -/
def port (host : List UInt8) : List UInt8 := (urlSplitHostPort host).2

theorem indexByte_append {b : UInt8} {front : List UInt8} (missing : b ∉ front) (back : List UInt8) :
    indexByte (front ++ b :: back) b = some front.length := by
  simp [indexByte, List.idxOf_append_of_notMem missing]

theorem lastIndexByte_append {b : UInt8} (front : List UInt8) {back : List UInt8} (missing : b ∉ back) :
    lastIndexByte (front ++ b :: back) b = some front.length := by
  have reversed : (front ++ b :: back).reverse.idxOf b = back.length := by
    rw [List.reverse_append, List.reverse_cons, List.append_assoc, List.singleton_append,
      List.idxOf_append_of_notMem (by simpa using missing)]
    simp
  simp only [lastIndexByte, List.mem_append, List.mem_cons, true_or, or_true, if_true, reversed,
    List.length_append, List.length_cons]
  congr 1
  omega

theorem length_joinHostPort (host port : List UInt8) :
    host.length + 1 + port.length ≤ (joinHostPort host port).length := by
  unfold joinHostPort
  split <;> simp <;> omega

theorem joinHostPort_ne_nil {host : List UInt8} (named : host ≠ []) (port : List UInt8) :
    joinHostPort host port ≠ joinHostPort [] port := by
  intro same
  have longer := length_joinHostPort host port
  have positive : 0 < host.length := List.length_pos_iff.mpr named
  rw [same] at longer
  simp [joinHostPort] at longer
  omega

/-- A host without a colon or brackets, and a port without colons or brackets. -/
structure Plain (host port : List UInt8) : Prop where
  hostOpen : openBracket ∉ host
  hostClose : closeBracket ∉ host
  portColon : colon ∉ port
  portOpen : openBracket ∉ port
  portClose : closeBracket ∉ port

/-- `SplitHostPort` undoes `JoinHostPort` on a host without brackets and a port
without colons or brackets; a host with a colon comes back from its brackets. -/
theorem splitHostPort_joinHostPort {host port : List UInt8} (plain : Plain host port) :
    splitHostPort (joinHostPort host port) = some (host, port) := by
  by_cases colonInHost : colon ∈ host
  · -- `[host]:port`: the last colon follows the first `]`
    have shape : joinHostPort host port =
        (openBracket :: host ++ [closeBracket]) ++ colon :: port := by
      simp [joinHostPort, colonInHost]
    have last := lastIndexByte_append (openBracket :: host ++ [closeBracket]) plain.portColon
    have close : indexByte ((openBracket :: host ++ [closeBracket]) ++ colon :: port) closeBracket =
        some (host.length + 1) := by
      have found := @indexByte_append closeBracket (openBracket :: host)
        (by simpa using ⟨by decide, plain.hostClose⟩) (colon :: port)
      simpa using found
    have noOpen : openBracket ∉ ((openBracket :: host ++ [closeBracket]) ++ colon :: port).drop 1 := by
      simpa using ⟨plain.hostOpen, by decide, by decide, plain.portOpen⟩
    have noClose : closeBracket ∉
        ((openBracket :: host ++ [closeBracket]) ++ colon :: port).drop (host.length + 1 + 1) := by
      simpa using ⟨by decide, plain.portClose⟩
    have head : ((openBracket :: host ++ [closeBracket]) ++ colon :: port).head? = some openBracket := rfl
    rw [shape]
    unfold splitHostPort
    rw [last]
    dsimp only
    rw [if_pos head, close]
    dsimp only
    have fits : host.length + 1 + 1 = (openBracket :: host ++ [closeBracket]).length := by simp
    rw [if_pos fits]
    dsimp only
    rw [← fits, if_neg noOpen, if_neg noClose]
    simp
  · -- `host:port`: the host is everything before the only colon
    have last := lastIndexByte_append host plain.portColon (b := colon)
    have notOpen : (host ++ colon :: port).head? ≠ some openBracket := by
      cases host with
      | nil => simp only [List.nil_append, List.head?_cons]; decide
      | cons first rest =>
        simp only [List.cons_append, List.head?_cons, ne_eq, Option.some.injEq]
        rintro rfl
        exact plain.hostOpen List.mem_cons_self
    have noOpen : openBracket ∉ host ++ colon :: port := by
      simpa using ⟨plain.hostOpen, by decide, plain.portOpen⟩
    have noClose : closeBracket ∉ host ++ colon :: port := by
      simpa using ⟨plain.hostClose, by decide, plain.portClose⟩
    simp only [joinHostPort, colonInHost, if_false]
    unfold splitHostPort
    rw [last]
    dsimp only
    rw [if_neg notOpen]
    simp only [List.take_left', colonInHost, if_false, List.drop_zero]
    rw [if_neg noOpen, if_neg noClose]
    simp

theorem lastIndexByte_bracketed {h : List UInt8} (colonIn : colon ∈ h) :
    ∃ i, lastIndexByte (openBracket :: h ++ [closeBracket]) colon = some i ∧ i ≤ h.length := by
  have inside : colon ∈ openBracket :: h ++ [closeBracket] := by simp [colonIn]
  have skip : (openBracket :: h ++ [closeBracket]).reverse.idxOf colon =
      (h.reverse ++ [openBracket]).idxOf colon + 1 := by
    simp [List.reverse_append, List.idxOf_cons_ne _ (by decide : closeBracket ≠ colon)]
  refine ⟨_, if_pos inside, ?_⟩
  simp only [skip, List.length_append, List.length_cons, List.length_nil]
  omega

theorem splitHostPort_bracketed {h : List UInt8} (colonIn : colon ∈ h) (noClose : closeBracket ∉ h) :
    splitHostPort (openBracket :: h ++ [closeBracket]) = none := by
  obtain ⟨i, last, within⟩ := lastIndexByte_bracketed colonIn
  have close : indexByte (openBracket :: h ++ [closeBracket]) closeBracket = some (h.length + 1) := by
    have found := @indexByte_append closeBracket (openBracket :: h) (by simpa using ⟨by decide, noClose⟩) []
    simpa using found
  have head : (openBracket :: h ++ [closeBracket]).head? = some openBracket := rfl
  have apart : ¬ h.length + 1 + 1 = i := by omega
  unfold splitHostPort
  rw [last]
  dsimp only
  rw [if_pos head, close]
  dsimp only
  rw [if_neg apart]

theorem hostname_bracketed {h : List UInt8} (colonIn : colon ∈ h) :
    hostname (openBracket :: h ++ [closeBracket]) = h := by
  obtain ⟨i, last, within⟩ := lastIndexByte_bracketed colonIn
  -- what follows the last colon ends in `]`, which is no digit
  have tail : ((openBracket :: h ++ [closeBracket]).drop i).tail = h.drop i ++ [closeBracket] := by
    rw [List.tail_drop, List.cons_append, List.drop_succ_cons, List.drop_append_of_le_length within]
  have invalid : validOptionalPort ((openBracket :: h ++ [closeBracket]).drop i) = false := by
    cases dropped : (openBracket :: h ++ [closeBracket]).drop i with
    | nil =>
      have := congrArg List.length dropped
      simp at this
      omega
    | cons c digits =>
      rw [dropped, List.tail_cons] at tail
      have notAll : digits.all isDigit = false := by
        rw [tail]
        simp [List.all_append, (by decide : isDigit closeBracket = false)]
      simp [validOptionalPort, notAll]
  have closing : (openBracket :: h ++ [closeBracket]).getLast? = some closeBracket := by
    rw [List.getLast?_append]
    simp
  unfold hostname urlSplitHostPort
  rw [last]
  dsimp only
  rw [invalid]
  simp only [Bool.false_eq_true, if_false, closing]
  simp

end GoText
