import WarpPlus.Semantics.NetIP
import WarpPlus.Semantics.Decimal
import WarpPlus.Semantics.Hex
import WarpPlus.Semantics.Lines
import WarpPlus.Semantics.HostPort

/-! IP addresses as text: `net.ParseIP` and `net.IP.String`.

`ParseIP` is `netip.ParseAddr` without a zone, answered in 16-byte form. IPv4 is
four dot-separated decimal fields, each at most 255 and without a leading zero.
IPv6 is colon-separated groups of one to four hex digits, at most one `::` standing
for at least one zero group, and possibly an embedded IPv4 address in the place of
the last two groups. `parseGroups` is the loop of `parseIPv6`, one group per round;
`length_parseIP` is what the callers rely on, that a parsed address has 16 bytes.

`parsePrefix` and `parseAddrPort` are `netip.ParsePrefix` and `netip.ParseAddrPort`
on that address parser: a length after the last `/`, and a port after the last `:`
with an IPv6 address in brackets.

`String` prints an IPv4 or IPv4-mapped address in dotted form and any other 16-byte
address as eight hex groups with the first longest run of at least two zero
groups written `::`.
-/

set_option autoImplicit false

namespace NetIP

open GoText

def isHexDigit (b : UInt8) : Bool :=
  (48 ≤ b && b ≤ 57) || (97 ≤ b && b ≤ 102) || (65 ≤ b && b ≤ 70)

def hexDigitValue (b : UInt8) : Nat :=
  if b ≤ 57 then b.toNat - 48 else if b ≤ 70 then b.toNat - 55 else b.toNat - 87

def hexDigitsValue (digits : List UInt8) : Nat :=
  digits.foldl (fun acc b => 16 * acc + hexDigitValue b) 0

/-- One decimal field of an IPv4 address. -/
def ipv4Field (field : List UInt8) : Option UInt8 :=
  if field ≠ [] ∧ field.all isDigit = true ∧ (field.length = 1 ∨ field.head? ≠ some 48) ∧
      digitsValue field ≤ 255 then some (digitsValue field).toUInt8
  else none

/-- `parseIPv4Fields`: exactly four fields separated by dots. -/
def parseIPv4 (s : List UInt8) : Option (List UInt8) :=
  match s.splitOn 46 with
  | [a, b, c, d] => do
    let a ← ipv4Field a
    let b ← ipv4Field b
    let c ← ipv4Field c
    let d ← ipv4Field d
    pure [a, b, c, d]
  | _ => none

/-- The loop of `parseIPv6` with `fuel` rounds left before the sixteen bytes are
full: the bytes so far, where `::` stands, and the text still unread. -/
def parseGroups : Nat → List UInt8 → Option Nat → List UInt8 →
    Option (List UInt8 × Option Nat × List UInt8)
  | 0, s, ellipsis, ip => some (ip, ellipsis, s)
  | fuel + 1, s, ellipsis, ip =>
    let digits := s.takeWhile isHexDigit
    if digits = [] ∨ 4 < digits.length then none
    else
      let rest := s.drop digits.length
      if rest.head? = some 46 then
        -- an embedded IPv4 address ends the address
        if ellipsis.isNone ∧ ip.length ≠ 12 then none
        else if 16 < ip.length + 4 then none
        else (parseIPv4 s).map fun four => (ip ++ four, ellipsis, [])
      else
        let value := hexDigitsValue digits
        let ip := ip ++ [(value / 256).toUInt8, (value % 256).toUInt8]
        match rest with
        | [] => some (ip, ellipsis, [])
        | c :: after =>
          if c ≠ 58 then none
          else if after = [] then none
          else if after.head? = some 58 then
            if ellipsis.isSome then none
            else if after.tail = [] then some (ip, some ip.length, [])
            else parseGroups fuel after.tail (some ip.length) ip
          else parseGroups fuel after ellipsis ip

/-- `parseIPv6` without a zone. -/
def parseIPv6 (s : List UInt8) : Option (List UInt8) :=
  let leading := s.take 2 = [58, 58]
  let ellipsis := if leading then some 0 else none
  let s := if leading then s.drop 2 else s
  if leading ∧ s = [] then some (List.replicate 16 0)
  else match parseGroups 8 s ellipsis [] with
    | none => none
    | some (ip, ellipsis, rest) =>
      if rest ≠ [] then none
      else if ip.length < 16 then
        match ellipsis with
        | none => none
        | some e => some (ip.take e ++ List.replicate (16 - ip.length) 0 ++ ip.drop e)
      else if ellipsis.isSome then none
      else some ip

/-- `net.ParseIP`. A zone (`%`) makes it fail, as an error or as a zone it refuses. -/
def parseIP (s : List UInt8) : Option (List UInt8) :=
  if 37 ∈ s then none
  else match s.find? fun b => b == 46 || b == 58 with
    | some 46 => (parseIPv4 s).map (v4InV6Prefix ++ ·)
    | some _ => parseIPv6 s
    | none => none

/-- `netip.ParseAddr`: the first `.`, `:` or `%` decides, an IPv4 address in four
bytes and an IPv6 one in sixteen. An IPv6 zone after `%` must not be empty; the
zone itself is not kept, as nothing modelled reads it. -/
def parseAddr (s : List UInt8) : Option (List UInt8) :=
  match s.find? fun b => b == 46 || b == 58 || b == 37 with
  | some 46 => parseIPv4 s
  | some 58 =>
    let addr := s.takeWhile (· != 37)
    if 37 ∈ s ∧ s.drop (addr.length + 1) = [] then none else parseIPv6 addr
  | _ => none

/-- The lowercase hex of a group, without leading zeros (`appendHex`). -/
def hexGroup (value : Nat) : List UInt8 := (Nat.toDigits 16 value).map byteOf

/-- The first longest run of at least two zero groups, as `[start, end)`. -/
def zeroRun (groups : List Nat) : Option (Nat × Nat) :=
  (List.range 8).foldl (fun best i =>
    let length := ((groups.drop i).takeWhile (· == 0)).length
    if 2 ≤ length ∧ (best.map fun run => run.2 - run.1).getD 0 < length then some (i, i + length)
    else best) none

def joinGroups (groups : List Nat) : List UInt8 :=
  [58].intercalate (groups.map hexGroup)

/-- `Addr.String` of an IPv6 address without a zone. -/
def ipv6String (ip : List UInt8) : List UInt8 :=
  let groups := (List.range 8).map fun i => (ip.getD (2 * i) 0).toNat * 256 + (ip.getD (2 * i + 1) 0).toNat
  match zeroRun groups with
  | none => joinGroups groups
  | some (start, stop) => joinGroups (groups.take start) ++ [58, 58] ++ joinGroups (groups.drop stop)

def ipv4String (four : List UInt8) : List UInt8 :=
  [46].intercalate (four.map fun b => itoa b.toNat)

/-- The lowercase hex of bytes. -/
def hexString (bytes : List UInt8) : List UInt8 :=
  bytes.flatMap fun b => [byteOf (Nat.digitChar (b.toNat / 16)), byteOf (Nat.digitChar (b.toNat % 16))]

/-- `netip.Addr.String` of a four- or sixteen-byte address without a zone: dotted for
IPv4, dotted after `::ffff:` for an IPv4-mapped address, and `string6` for any other. -/
def addrString (ip : List UInt8) : List UInt8 :=
  if ip.length = 4 then ipv4String ip
  else if ip.take 12 = v4InV6Prefix then ascii "::ffff:" ++ ipv4String (ip.drop 12)
  else ipv6String ip

/-- `netip.Prefix.String`: the address and its length after a slash, or the text of an
invalid prefix. -/
def prefixString (addr : List UInt8) (bits : Nat) : List UInt8 :=
  if (addr.length = 4 ∨ addr.length = 16) ∧ bits ≤ 8 * addr.length then addrString addr ++ 47 :: itoa bits
  else ascii "invalid Prefix"

/-- `net.IP.String`. -/
def ipString (ip : List UInt8) : List UInt8 :=
  if ip = [] then ascii "<nil>"
  else if ip.length ≠ 4 ∧ ip.length ≠ 16 then ascii "?" ++ hexString ip
  else match to4 ip with
    | some four => ipv4String four
    | none => ipv6String ip

theorem length_parseIPv4 {s four : List UInt8} (parsed : parseIPv4 s = some four) : four.length = 4 := by
  unfold parseIPv4 at parsed
  split at parsed
  · simp only [Option.bind_eq_bind, Option.bind_eq_some_iff, Option.pure_def, Option.some.injEq] at parsed
    obtain ⟨_, -, _, -, _, -, _, -, rfl⟩ := parsed
    rfl
  · cases parsed

theorem parseGroups_length {fuel : Nat} {s ip ip' rest : List UInt8} {ellipsis ellipsis' : Option Nat}
    (room : ip.length + 2 * fuel ≤ 16) (placed : ∀ e, ellipsis = some e → e ≤ ip.length)
    (parsed : parseGroups fuel s ellipsis ip = some (ip', ellipsis', rest)) :
    ip'.length ≤ 16 ∧ ∀ e, ellipsis' = some e → e ≤ ip'.length := by
  -- induction on the rounds left; `room` keeps two bytes free for each of them
  induction fuel generalizing s ellipsis ip with
  | zero =>
    simp only [parseGroups, Option.some.injEq, Prod.mk.injEq] at parsed
    obtain ⟨rfl, rfl, -⟩ := parsed
    exact ⟨by omega, placed⟩
  | succ fuel ih =>
    have grown : ∀ a b : UInt8, (ip ++ [a, b]).length = ip.length + 2 := by simp
    unfold parseGroups at parsed
    dsimp only at parsed
    split at parsed
    · cases parsed
    split at parsed
    · -- an embedded IPv4 address takes the last four bytes
      split_ifs at parsed with misplaced full
      obtain ⟨four, parsedFour, same⟩ := Option.map_eq_some_iff.mp parsed
      simp only [Prod.mk.injEq] at same
      obtain ⟨rfl, rfl, -⟩ := same
      rw [List.length_append, length_parseIPv4 parsedFour]
      exact ⟨by omega, fun e at_ => by have := placed e at_; omega⟩
    split at parsed
    · -- the last group
      cases parsed
      rw [grown]
      exact ⟨by omega, fun e at_ => by have := placed e at_; omega⟩
    · split_ifs at parsed
      · -- a closing `::`
        cases parsed
        exact ⟨by rw [grown]; omega, fun e at_ => by cases at_; exact Nat.le_refl _⟩
      · -- `::` in the middle
        exact ih (by rw [grown]; omega) (fun e at_ => by cases at_; exact Nat.le_refl _) parsed
      · exact ih (by rw [grown]; omega) (fun e at_ => by have := placed e at_; rw [grown]; omega) parsed

theorem length_of_parseGroups {s : List UInt8} {start : Option Nat} (atStart : ∀ e, start = some e → e = 0)
    {ip : List UInt8}
    (parsed : (match parseGroups 8 s start [] with
      | none => none
      | some (ip, ellipsis, rest) =>
        if rest ≠ [] then none
        else if ip.length < 16 then
          match ellipsis with
          | none => none
          | some e => some (ip.take e ++ List.replicate (16 - ip.length) 0 ++ ip.drop e)
        else if ellipsis.isSome then none
        else some ip) = some ip) :
    ip.length = 16 := by
  split at parsed
  · cases parsed
  · next groups ellipsis rest looped =>
    have bound := parseGroups_length (by simp) (fun e at_ => by simp [atStart e at_]) looped
    split_ifs at parsed with unread short
    · split at parsed
      · cases parsed
      · next e =>
        cases parsed
        have := bound.2 e rfl
        simp only [List.length_append, List.length_take, List.length_replicate, List.length_drop]
        omega
    · cases parsed
      omega

theorem length_parseIPv6 {s ip : List UInt8} (parsed : parseIPv6 s = some ip) : ip.length = 16 := by
  unfold parseIPv6 at parsed
  dsimp only at parsed
  split_ifs at parsed with leading unspecified unspecified
  · -- `::` alone
    cases parsed
    simp
  · exact length_of_parseGroups (fun e at_ => by cases at_; rfl) parsed
  · exact absurd unspecified.1 leading
  · exact length_of_parseGroups (fun e at_ => by cases at_) parsed

/-- `ParseIP` answers sixteen bytes. -/
theorem length_parseIP {s ip : List UInt8} (parsed : parseIP s = some ip) : ip.length = 16 := by
  unfold parseIP at parsed
  split_ifs at parsed
  split at parsed
  · obtain ⟨four, parsedFour, rfl⟩ := Option.map_eq_some_iff.mp parsed
    rw [List.length_append, length_parseIPv4 parsedFour]
    rfl
  · exact length_parseIPv6 parsed
  · cases parsed

/-! ### Printed IPv4 addresses parse back -/

theorem ipv4Field_itoa (b : UInt8) : ipv4Field (itoa b.toNat) = some b := by
  have canonical : (itoa b.toNat).length = 1 ∨ (itoa b.toNat).head? ≠ some 48 := by
    rcases Nat.eq_zero_or_pos b.toNat with zero | positive
    · left
      rw [zero]
      rfl
    · exact Or.inr (head_itoa_ne_zero positive)
  have small : digitsValue (itoa b.toNat) ≤ 255 := by
    have := b.toNat_lt
    rw [digitsValue_itoa]
    omega
  rw [ipv4Field, if_pos ⟨itoa_ne_nil _, all_isDigit_itoa _, canonical, small⟩, digitsValue_itoa]
  simp

theorem ipv4String_eq (a b c d : UInt8) :
    ipv4String [a, b, c, d] =
      itoa a.toNat ++ 46 :: (itoa b.toNat ++ 46 :: (itoa c.toNat ++ 46 :: itoa d.toNat)) := by
  simp [ipv4String, List.intercalate]

theorem not_mem_ipv4String {x : UInt8} (notDigit : isDigit x = false) (notDot : x ≠ 46)
    {four : List UInt8} (length : four.length = 4) : x ∉ ipv4String four := by
  match four, length with
  | [a, b, c, d], _ =>
    rw [ipv4String_eq]
    simp [not_mem_itoa notDigit, notDot]

theorem parseIPv4_ipv4String {four : List UInt8} (length : four.length = 4) :
    parseIPv4 (ipv4String four) = some four := by
  match four, length with
  | [a, b, c, d], _ =>
    -- the dots between the fields are the only dots
    have noDot : ∀ field ∈ [a, b, c, d].map (fun b => itoa b.toNat), (46 : UInt8) ∉ field := by
      intro field member
      obtain ⟨x, -, rfl⟩ := List.mem_map.mp member
      exact not_mem_itoa (by decide) _
    have fields := List.splitOn_intercalate 46 noDot (by simp)
    rw [parseIPv4, ipv4String, fields]
    simp only [List.map_cons, List.map_nil, ipv4Field_itoa]
    rfl

/-- Digits are passed over by a search for a byte that is not one. -/
theorem find?_itoa_append {p : UInt8 → Bool} (digitsFail : ∀ b, isDigit b = true → p b = false) (n : Nat)
    (rest : List UInt8) : (itoa n ++ rest).find? p = rest.find? p := by
  rw [List.find?_append, List.find?_eq_none.mpr fun b member => by simp [digitsFail b (isDigit_of_mem_itoa member)]]
  rfl

theorem parseIP_ipv4String {four : List UInt8} (length : four.length = 4) :
    parseIP (ipv4String four) = some (v4InV6Prefix ++ four) := by
  obtain ⟨a, b, c, d, rfl⟩ := List.length_eq_four.mp length
  have noPercent : (37 : UInt8) ∉ ipv4String [a, b, c, d] := not_mem_ipv4String (by decide) (by decide) rfl
  have firstDot : (ipv4String [a, b, c, d]).find? (fun b => b == 46 || b == 58) = some 46 := by
    rw [ipv4String_eq, find?_itoa_append fun b digit => by grind [isDigit]]
    rfl
  rw [parseIP, if_neg noPercent, firstDot, parseIPv4_ipv4String rfl]
  rfl

theorem ipString_of_length_four {four : List UInt8} (length : four.length = 4) :
    ipString four = ipv4String four := by
  have nonempty : four ≠ [] := fun empty => by simp [empty] at length
  simp [ipString, nonempty, length, to4]

/-! ### Printed addresses and prefixes fit in a line -/

theorem hexString_eq_encodeToString (bytes : List UInt8) : hexString bytes = Hex.encodeToString bytes := by
  have low := fun b : UInt8 => Hex.byteOf_digitChar (Nat.mod_lt b.toNat (by decide : 0 < 16))
  have high := fun b : UInt8 =>
    Hex.byteOf_digitChar (Nat.div_lt_of_lt_mul (by have := b.toNat_lt; omega) : b.toNat / 16 < 16)
  simp only [hexString, Hex.encodeToString, low, high]
  rfl

theorem le_of_mem_hexGroup {value : Nat} {b : UInt8} (member : b ∈ hexGroup value) : 48 ≤ b := by
  obtain ⟨c, digit, rfl⟩ := List.mem_map.mp member
  obtain ⟨d, small, rfl⟩ := exists_digitChar_of_mem_toDigits (by decide) digit
  rw [Hex.byteOf_digitChar small]
  exact Hex.le_hexDigit small

theorem length_hexGroup_le {value : Nat} (small : value < 2 ^ 16) : (hexGroup value).length ≤ 4 := by
  rw [hexGroup, List.length_map]
  exact Nat.toDigits_length 16 value 4 (by decide) (by simpa using small)

theorem printable_joinGroups (groups : List Nat) : ∀ b ∈ joinGroups groups, 32 ≤ b := by
  refine forall_mem_intercalate (by simp) ?_
  intro piece member b within
  obtain ⟨value, -, rfl⟩ := List.mem_map.mp member
  exact UInt8.le_trans (by decide) (le_of_mem_hexGroup within)

theorem length_joinGroups_le {groups : List Nat} (small : ∀ g ∈ groups, g < 2 ^ 16) :
    (joinGroups groups).length ≤ 5 * groups.length := by
  have bounded : ∀ piece ∈ groups.map hexGroup, piece.length ≤ 4 := by
    intro piece member
    obtain ⟨value, within, rfl⟩ := List.mem_map.mp member
    exact length_hexGroup_le (small value within)
  have joined := length_intercalate_le [(58 : UInt8)] bounded
  rw [List.length_map] at joined
  simp only [joinGroups, List.length_singleton] at joined ⊢
  omega

theorem printable_ipv6String (ip : List UInt8) : ∀ b ∈ ipv6String ip, 32 ≤ b := by
  intro b member
  unfold ipv6String at member
  dsimp only at member
  split at member
  · exact printable_joinGroups _ b member
  · simp only [List.mem_append] at member
    rcases member with (member | member) | member
    · exact printable_joinGroups _ b member
    · simp only [List.mem_cons, List.not_mem_nil, or_false] at member
      rcases member with rfl | rfl <;> decide
    · exact printable_joinGroups _ b member

theorem length_ipv6String_le (ip : List UInt8) : (ipv6String ip).length ≤ 82 := by
  -- each group is two bytes, so it has at most four hex digits
  have small : ∀ g ∈ (List.range 8).map (fun i => (ip.getD (2 * i) 0).toNat * 256 + (ip.getD (2 * i + 1) 0).toNat),
      g < 2 ^ 16 := by
    intro g member
    obtain ⟨i, -, rfl⟩ := List.mem_map.mp member
    have := (ip.getD (2 * i) 0).toNat_lt
    have := (ip.getD (2 * i + 1) 0).toNat_lt
    omega
  unfold ipv6String
  dsimp only
  generalize named : (List.range 8).map
    (fun i => (ip.getD (2 * i) 0).toNat * 256 + (ip.getD (2 * i + 1) 0).toNat) = groups at small ⊢
  have eight : groups.length = 8 := by simp [← named]
  split
  · have := length_joinGroups_le small
    omega
  · next start stop _ =>
    have front := length_joinGroups_le fun g (member : g ∈ groups.take start) => small g (List.mem_of_mem_take member)
    have back := length_joinGroups_le fun g (member : g ∈ groups.drop stop) => small g (List.mem_of_mem_drop member)
    have taken := List.length_take_le' start groups
    simp only [List.length_append, List.length_cons, List.length_nil, List.length_drop] at front back ⊢
    omega

theorem printable_itoa (n : Nat) : ∀ b ∈ itoa n, 32 ≤ b := fun b member => by
  have digit := isDigit_of_mem_itoa member
  simp only [isDigit, Bool.and_eq_true, decide_eq_true_eq] at digit
  exact UInt8.le_trans (by decide) digit.1

theorem printable_ipv4String {four : List UInt8} (length : four.length = 4) : ∀ b ∈ ipv4String four, 32 ≤ b := by
  obtain ⟨a, b, c, d, rfl⟩ := List.length_eq_four.mp length
  rw [ipv4String_eq]
  intro x member
  simp only [List.mem_append, List.mem_cons] at member
  rcases member with member | rfl | member | rfl | member | rfl | member
  all_goals first | decide | exact printable_itoa _ x member

theorem length_ipv4String_le {four : List UInt8} (length : four.length = 4) : (ipv4String four).length ≤ 15 := by
  have byte : ∀ x : UInt8, (itoa x.toNat).length ≤ 3 := fun x =>
    (length_itoa_le_iff (by decide)).mpr (by have := x.toNat_lt; omega)
  obtain ⟨a, b, c, d, rfl⟩ := List.length_eq_four.mp length
  rw [ipv4String_eq]
  have := byte a
  have := byte b
  have := byte c
  have := byte d
  simp only [List.length_append, List.length_cons]
  omega

theorem printable_prefixString (addr : List UInt8) (bits : Nat) : ∀ b ∈ prefixString addr bits, 32 ≤ b := by
  unfold prefixString
  split
  · next valid =>
    intro b member
    rw [List.mem_append, List.mem_cons] at member
    rcases member with member | rfl | member
    · unfold addrString at member
      split at member
      · next four => exact printable_ipv4String four b member
      split at member
      · next mapped =>
        rw [List.mem_append] at member
        rcases member with member | member
        · revert b
          simp [ascii, byteOf]
        · have sixteen : addr.length = 16 := valid.1.resolve_left ‹_›
          exact printable_ipv4String (by simp [sixteen]) b member
      · exact printable_ipv6String addr b member
    · decide
    · exact printable_itoa bits b member
  · simp [ascii, byteOf]

theorem length_prefixString_le (addr : List UInt8) (bits : Nat) : (prefixString addr bits).length ≤ 86 := by
  unfold prefixString
  split
  · next valid =>
    have short : (itoa bits).length ≤ 3 := (length_itoa_le_iff (by decide)).mpr (by omega)
    have address : (addrString addr).length ≤ 82 := by
      unfold addrString
      split
      · next four => exact le_trans (length_ipv4String_le four) (by decide)
      split
      · have sixteen : addr.length = 16 := valid.1.resolve_left ‹_›
        have := length_ipv4String_le (show (addr.drop 12).length = 4 by simp [sixteen])
        simp only [List.length_append]
        have prefixLength : (ascii "::ffff:").length = 7 := by simp [ascii]
        omega
      · exact length_ipv6String_le addr
    simp only [List.length_append, List.length_cons]
    omega
  · simp [ascii]

theorem field_prefixString (addr : List UInt8) (bits : Nat) : Field (prefixString addr bits) :=
  Field.of_printable (printable_prefixString addr bits)
    (lt_of_le_of_lt (Nat.mul_le_mul_left 2 (length_prefixString_le addr bits)) (by decide))

/-! ### Prefixes and address-port pairs -/

/-- `netip.ParsePrefix`, with the prefix as its address and length: an address
without a zone before the last `/`, and after it a length with no sign and no
leading zero, at most the address's bits. -/
def parsePrefix (s : List UInt8) : Option (List UInt8 × Nat) :=
  match lastIndexByte s 47 with
  | none => none
  | some i =>
    let bitsText := s.drop (i + 1)
    match parseAddr (s.take i), atoi bitsText with
    | some ip, some bits =>
      -- `strconv.Atoi` would take a sign or a leading zero; `ParsePrefix` refuses them first
      if 37 ∈ s.take i then none
      else if 1 < bitsText.length ∧ (bitsText.headD 0 < 49 ∨ 57 < bitsText.headD 0) then none
      else if bits < 0 ∨ 8 * ip.length < bits then none
      else some (ip, bits.toNat)
    | _, _ => none

/-- `netip.AddrPort`; the zone of an IPv6 address is not kept. -/
structure AddrPort where
  addr : List UInt8
  port : UInt16
  deriving DecidableEq, Repr

/-- `splitAddrPort`: the address text, the port text, and whether the address was
in brackets. -/
def splitAddrPort (s : List UInt8) : Option (List UInt8 × List UInt8 × Bool) :=
  match lastIndexByte s 58 with
  | none => none
  | some i =>
    let ip := s.take i
    let port := s.drop (i + 1)
    if ip = [] ∨ port = [] then none
    else if ip.head? = some 91 then
      if ip.length < 2 ∨ ip.getLast? ≠ some 93 then none
      else some ((ip.drop 1).dropLast, port, true)
    else some (ip, port, false)

/-- `netip.ParseAddrPort`: a port that fits 16 bits, and brackets around an IPv6
address and only around one. -/
def parseAddrPort (s : List UInt8) : Option AddrPort :=
  match splitAddrPort s with
  | none => none
  | some (ip, port, v6) =>
    match parseUint port 16, parseAddr ip with
    | some port, some addr =>
      if v6 ∧ addr.length = 4 then none
      else if !v6 ∧ addr.length = 16 then none
      else some ⟨addr, port.toUInt16⟩
    | _, _ => none

theorem length_parseAddr {s ip : List UInt8} (parsed : parseAddr s = some ip) :
    ip.length = 4 ∨ ip.length = 16 := by
  unfold parseAddr at parsed
  split at parsed
  · exact .inl (length_parseIPv4 parsed)
  · dsimp only at parsed
    split_ifs at parsed
    exact .inr (length_parseIPv6 parsed)
  · cases parsed

theorem parsePrefix_valid {s addr : List UInt8} {bits : Nat} (parsed : parsePrefix s = some (addr, bits)) :
    (addr.length = 4 ∨ addr.length = 16) ∧ bits ≤ 8 * addr.length := by
  unfold parsePrefix at parsed
  split at parsed
  · cases parsed
  · dsimp only at parsed
    split at parsed
    · next ip length parsedAddr parsedBits =>
      split_ifs at parsed with zone sign range
      cases parsed
      exact ⟨length_parseAddr parsedAddr, by omega⟩
    · cases parsed

example : parsePrefix (ascii "10.0.0.0/8") = some ([10, 0, 0, 0], 8) ∧
    parsePrefix (ascii "::/0") = some (List.replicate 16 0, 0) ∧ parsePrefix (ascii "10.0.0.0/08") = none := by
  decide

example : parseAddrPort (ascii "162.159.192.1:2408") = some ⟨[162, 159, 192, 1], 2408⟩ ∧
    parseAddrPort (ascii "[::1]:51820") = some ⟨List.replicate 15 0 ++ [1], 51820⟩ ∧
    parseAddrPort (ascii "::1:51820") = none := by
  decide

end NetIP
