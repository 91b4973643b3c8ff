import Mathlib

/-! Go's `net.IP` as a byte slice: the conversions `To4` and `To16` and the
comparison `Equal`, which treat a 4-byte address and its 16-byte IPv4-mapped form
(`::ffff:a.b.c.d`) as the same address. A nil `IP` is the empty list.
-/

set_option autoImplicit false

namespace NetIP

/-- The first twelve bytes of an IPv4-mapped IPv6 address. -/
def v4InV6Prefix : List UInt8 := [0, 0, 0, 0, 0, 0, 0, 0, 0, 0, 0xff, 0xff]

/-- `IP.To4`: the 4-byte form of an IPv4 address, or nil. -/
def to4 (ip : List UInt8) : Option (List UInt8) :=
  if ip.length = 4 then some ip
  else if ip.length = 16 ∧ ip.take 12 = v4InV6Prefix then some (ip.drop 12)
  else none

/-- `IP.To16`: the 16-byte form, mapping an IPv4 address into `::ffff:0:0/96`. -/
def to16 (ip : List UInt8) : Option (List UInt8) :=
  if ip.length = 4 then some (v4InV6Prefix ++ ip)
  else if ip.length = 16 then some ip
  else none

/-- `IP.Equal`. -/
def equal (ip x : List UInt8) : Bool :=
  if ip.length = x.length then ip == x
  else if ip.length = 4 ∧ x.length = 16 then x.take 12 == v4InV6Prefix && ip == x.drop 12
  else if ip.length = 16 ∧ x.length = 4 then ip.take 12 == v4InV6Prefix && ip.drop 12 == x
  else false

theorem equal_self (ip : List UInt8) : equal ip ip = true := by
  simp [equal]

theorem length_of_to4 {ip four : List UInt8} (converted : to4 ip = some four) : four.length = 4 := by
  unfold to4 at converted
  split_ifs at converted with short long
  · cases converted
    exact short
  · cases converted
    simp [long.1]

theorem equal_of_to4 {ip four : List UInt8} (converted : to4 ip = some four) : equal four ip = true := by
  unfold to4 at converted
  split_ifs at converted with short long
  · cases converted
    exact equal_self ip
  · cases converted
    have dropped : (ip.drop 12).length = 4 := by simp [long.1]
    simp [equal, dropped, long.1, long.2]

theorem to4_mapped {ip : List UInt8} (four : ip.length = 4) : to4 (v4InV6Prefix ++ ip) = some ip := by
  simp [to4, v4InV6Prefix, four]

theorem to16_of_length {ip : List UInt8} (long : ip.length = 16) : to16 ip = some ip := by
  simp [to16, long]

end NetIP
