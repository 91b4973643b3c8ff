import WarpPlus.Semantics.IPText

/-! Printed addresses and prefixes parse back: `netip.ParsePrefix` reads
`Prefix.String` of every valid prefix as that prefix (`parsePrefix_prefixString`).

The IPv6 case follows `parseGroups` along the text `string6` writes. A run of groups
joined by `:` is read one group per round (`parseGroups_joinGroups`), and a `::` between
two runs stands where the zero run was cut out (`parseGroups_ellipsis`). Since the
zero run (`zeroRun`) is a run of zeros, the bytes the parser puts back in its place
are the ones the printer left out.
-/

set_option autoImplicit false

namespace NetIP

open GoText

/-! ### Hex groups -/

theorem isHexDigit_hexDigit {v : Nat} (small : v < 16) : isHexDigit (Hex.hexDigit v) = true := by
  rcases v with _ | _ | _ | _ | _ | _ | _ | _ | _ | _ | _ | _ | _ | _ | _ | _ | v
  all_goals first | decide | omega

theorem hexDigitValue_hexDigit {v : Nat} (small : v < 16) : hexDigitValue (Hex.hexDigit v) = v := by
  rcases v with _ | _ | _ | _ | _ | _ | _ | _ | _ | _ | _ | _ | _ | _ | _ | _ | v
  all_goals first | decide | omega

theorem hexGroup_eq (value : Nat) :
    hexGroup value =
      if value < 16 then [Hex.hexDigit value] else hexGroup (value / 16) ++ [Hex.hexDigit (value % 16)] := by
  rw [hexGroup, Nat.toDigits_eq_if (by decide)]
  split
  · next small => simp [Hex.byteOf_digitChar small]
  · simp [hexGroup, Hex.byteOf_digitChar (Nat.mod_lt value (by decide : 0 < 16))]

theorem hexGroup_ne_nil (value : Nat) : hexGroup value ≠ [] := by
  simp [hexGroup, Nat.toDigits_ne_nil]

theorem isHexDigit_of_mem_hexGroup {value : Nat} {b : UInt8} (member : b ∈ hexGroup value) :
    isHexDigit b = true := by
  obtain ⟨c, digit, rfl⟩ := List.mem_map.mp member
  obtain ⟨d, small, rfl⟩ := exists_digitChar_of_mem_toDigits (by decide) digit
  rw [Hex.byteOf_digitChar small]
  exact isHexDigit_hexDigit small

@[simp] theorem hexDigitsValue_hexGroup (value : Nat) : hexDigitsValue (hexGroup value) = value := by
  -- on the number of digits, the last one written after those of `value / 16`
  induction value using Nat.strong_induction_on with
  | _ value ih =>
    rw [hexGroup_eq]
    split
    · next small => simp [hexDigitsValue, hexDigitValue_hexDigit small]
    · next large =>
      have high := ih (value / 16) (Nat.div_lt_self (by omega) (by decide))
      simp only [hexDigitsValue, List.foldl_append, List.foldl_cons, List.foldl_nil] at high ⊢
      rw [high, hexDigitValue_hexDigit (Nat.mod_lt value (by decide))]
      omega

theorem hexGroup_short {value : Nat} (small : value < 2 ^ 16) : ¬ 4 < (hexGroup value).length :=
  Nat.not_lt.mpr (length_hexGroup_le small)

/-- The hex digits of a group, then a byte that is not one, are read as that group. -/
theorem takeWhile_hexGroup (value : Nat) {rest : List UInt8}
    (stops : ∀ c, rest.head? = some c → isHexDigit c = false) :
    (hexGroup value ++ rest).takeWhile isHexDigit = hexGroup value := by
  rw [List.takeWhile_append_of_pos fun b member => isHexDigit_of_mem_hexGroup member]
  cases rest with
  | nil => simp
  | cons c rest => simp [stops c rfl]

/-! ### Groups and their bytes -/

/-- The two bytes a group stands for, as `parseIPv6` appends them. -/
def groupBytes (value : Nat) : List UInt8 := [(value / 256).toUInt8, (value % 256).toUInt8]

/-- The groups `string6` prints of the first `2 * n` bytes. -/
def groupsOf (n : Nat) (ip : List UInt8) : List Nat :=
  (List.range n).map fun i => (ip.getD (2 * i) 0).toNat * 256 + (ip.getD (2 * i + 1) 0).toNat

theorem length_flatMap_groupBytes (groups : List Nat) : (groups.flatMap groupBytes).length = 2 * groups.length := by
  induction groups with
  | nil => rfl
  | cons g groups ih => simp [groupBytes, ih]; omega

theorem flatMap_groupBytes_replicate (n : Nat) : (List.replicate n 0).flatMap groupBytes = List.replicate (2 * n) 0 := by
  induction n with
  | zero => rfl
  | succ n ih =>
    rw [List.replicate_succ, List.flatMap_cons, ih, show 2 * (n + 1) = 2 + 2 * n by omega, List.replicate_add]
    rfl

theorem groupsOf_succ (n : Nat) (a b : UInt8) (rest : List UInt8) :
    groupsOf (n + 1) (a :: b :: rest) = (a.toNat * 256 + b.toNat) :: groupsOf n rest := by
  simp only [groupsOf, List.range_succ_eq_map, List.map_cons, List.map_map]
  congr 2

theorem groupBytes_pair (a b : UInt8) : groupBytes (a.toNat * 256 + b.toNat) = [a, b] := by
  have := b.toNat_lt
  simp only [groupBytes, List.cons.injEq, and_true]
  constructor
  · rw [show (a.toNat * 256 + b.toNat) / 256 = a.toNat by omega]
    simp
  · rw [show (a.toNat * 256 + b.toNat) % 256 = b.toNat by omega]
    simp

theorem flatMap_groupBytes_groupsOf {n : Nat} {ip : List UInt8} (length : ip.length = 2 * n) :
    (groupsOf n ip).flatMap groupBytes = ip := by
  -- two bytes a group
  induction n generalizing ip with
  | zero => simp_all [groupsOf]
  | succ n ih =>
    obtain ⟨a, b, rest, rfl⟩ : ∃ a b rest, ip = a :: b :: rest := by
      rcases ip with _ | ⟨a, _ | ⟨b, rest⟩⟩
      all_goals simp at length ⊢
      omega
    rw [groupsOf_succ, List.flatMap_cons, groupBytes_pair, ih (by simp at length; omega)]
    rfl

theorem lt_of_mem_groupsOf {n : Nat} {ip : List UInt8} {g : Nat} (member : g ∈ groupsOf n ip) : g < 2 ^ 16 := by
  obtain ⟨i, -, rfl⟩ := List.mem_map.mp member
  have := (ip.getD (2 * i) 0).toNat_lt
  have := (ip.getD (2 * i + 1) 0).toNat_lt
  omega

/-! ### One round of `parseGroups` -/

section round

variable {value : Nat} (fuel : Nat) (ellipsis : Option Nat) (ip : List UInt8)

theorem parseGroups_last (small : value < 2 ^ 16) :
    parseGroups (fuel + 1) (hexGroup value) ellipsis ip = some (ip ++ groupBytes value, ellipsis, []) := by
  rw [parseGroups, ← List.append_nil (hexGroup value), takeWhile_hexGroup value (by simp)]
  simp only [hexGroup_ne_nil, hexGroup_short small, or_self, if_false, List.drop_left, hexDigitsValue_hexGroup]
  rfl

/-- A single `:` between two groups: the round goes on with the next group. -/
theorem parseGroups_separator (small : value < 2 ^ 16) {after : List UInt8} (nonempty : after ≠ [])
    (startsHex : ∀ c, after.head? = some c → isHexDigit c = true) :
    parseGroups (fuel + 1) (hexGroup value ++ 58 :: after) ellipsis ip =
      parseGroups fuel after ellipsis (ip ++ groupBytes value) := by
  have notColon : after.head? ≠ some 58 := fun colon => absurd (startsHex 58 colon) (by decide)
  rw [parseGroups, takeWhile_hexGroup value (by simp; decide)]
  simp only [hexGroup_ne_nil, hexGroup_short small, or_self, if_false, List.drop_left, hexDigitsValue_hexGroup]
  simp only [List.head?_cons, Option.some.injEq, nonempty, notColon]
  rfl

/-- A `::` after a group: where the bytes stand so far is where the zeros go. -/
theorem parseGroups_colons (small : value < 2 ^ 16) {after : List UInt8} :
    parseGroups (fuel + 1) (hexGroup value ++ 58 :: 58 :: after) none ip =
      if after = [] then some (ip ++ groupBytes value, some (ip ++ groupBytes value).length, [])
      else parseGroups fuel after (some (ip ++ groupBytes value).length) (ip ++ groupBytes value) := by
  rw [parseGroups, takeWhile_hexGroup value (by simp; decide)]
  simp only [hexGroup_ne_nil, hexGroup_short small, or_self, if_false, List.drop_left, hexDigitsValue_hexGroup]
  simp
  rfl

end round

/-! ### Runs of groups -/

@[simp] theorem joinGroups_nil : joinGroups [] = [] := rfl

theorem joinGroups_singleton (value : Nat) : joinGroups [value] = hexGroup value := by
  simp [joinGroups]

theorem joinGroups_cons_cons (value next : Nat) (groups : List Nat) :
    joinGroups (value :: next :: groups) = hexGroup value ++ 58 :: joinGroups (next :: groups) := by
  simp [joinGroups, List.intercalate_cons_cons]

theorem joinGroups_cons (value : Nat) (groups : List Nat) : ∃ t, joinGroups (value :: groups) = hexGroup value ++ t := by
  cases groups with
  | nil => exact ⟨[], by simp [joinGroups_singleton]⟩
  | cons next groups => exact ⟨_, joinGroups_cons_cons value next groups⟩

theorem startsHex_hexGroup (value : Nat) (t : List UInt8) :
    ∀ c, (hexGroup value ++ t).head? = some c → isHexDigit c = true := by
  intro c first
  rw [List.head?_append_of_ne_nil _ (hexGroup_ne_nil value)] at first
  exact isHexDigit_of_mem_hexGroup (List.mem_of_mem_head? first)

theorem take_two_hexGroup (value : Nat) (t : List UInt8) : (hexGroup value ++ t).take 2 ≠ [58, 58] := by
  intro colons
  have first : (hexGroup value ++ t).head? = some 58 := by
    simpa [List.head?_take] using congrArg List.head? colons
  exact absurd (startsHex_hexGroup value t 58 first) (by decide)

section runs

variable {fuel : Nat}

/-- A run of groups joined by single colons is read one group per round. -/
theorem parseGroups_joinGroups {groups : List Nat} (nonempty : groups ≠ []) (small : ∀ g ∈ groups, g < 2 ^ 16)
    (enough : groups.length ≤ fuel) (ellipsis : Option Nat) (ip : List UInt8) :
    parseGroups fuel (joinGroups groups) ellipsis ip = some (ip ++ groups.flatMap groupBytes, ellipsis, []) := by
  induction groups generalizing fuel ip with
  | nil => exact absurd rfl nonempty
  | cons value groups ih =>
    obtain ⟨fuel, rfl⟩ : ∃ f, fuel = f + 1 := ⟨fuel - 1, by simp at enough; omega⟩
    cases groups with
    | nil =>
      rw [joinGroups_singleton, parseGroups_last fuel ellipsis ip (small value List.mem_cons_self)]
      simp
    | cons next groups =>
      -- the next group starts right after the colon
      obtain ⟨t, joined⟩ := joinGroups_cons next groups
      rw [joinGroups_cons_cons, parseGroups_separator fuel ellipsis ip (small value List.mem_cons_self)
          (by simp [joined, hexGroup_ne_nil]) (by rw [joined]; exact startsHex_hexGroup next t),
        ih (by simp) (fun g member => small g (List.mem_cons_of_mem _ member)) (by simp at enough ⊢; omega)]
      simp

/-- Two runs around a `::`: the bytes of both, with the place of the `::` between them. -/
theorem parseGroups_ellipsis {front back : List Nat} (nonempty : front ≠ [])
    (small : ∀ g ∈ front ++ back, g < 2 ^ 16) (enough : front.length + back.length ≤ fuel) (ip : List UInt8) :
    parseGroups fuel (joinGroups front ++ 58 :: 58 :: joinGroups back) none ip =
      some (ip ++ front.flatMap groupBytes ++ back.flatMap groupBytes,
        some (ip ++ front.flatMap groupBytes).length, []) := by
  induction front generalizing fuel ip with
  | nil => exact absurd rfl nonempty
  | cons value front ih =>
    obtain ⟨fuel, rfl⟩ : ∃ f, fuel = f + 1 := ⟨fuel - 1, by simp at enough; omega⟩
    have smallValue := small value (by simp)
    cases front with
    | nil =>
      rw [joinGroups_singleton, parseGroups_colons fuel ip smallValue]
      cases back with
      | nil => simp [joinGroups]
      | cons first back =>
        -- the run after the `::`
        obtain ⟨t, joined⟩ := joinGroups_cons first back
        have after : joinGroups (first :: back) ≠ [] := by simp [joined, hexGroup_ne_nil]
        rw [if_neg after, parseGroups_joinGroups (by simp) (fun g member => small g (by simp [member]))
          (by simp at enough ⊢; omega)]
        simp
    | cons next front =>
      obtain ⟨t, joined⟩ := joinGroups_cons next front
      rw [joinGroups_cons_cons, List.append_assoc, List.cons_append,
        parseGroups_separator fuel none ip smallValue (by simp [joined, hexGroup_ne_nil])
          (by rw [joined, List.append_assoc]; exact startsHex_hexGroup next _),
        ih (by simp) (fun g member => small g (by simp at member ⊢; tauto)) (by simp at enough ⊢; omega)]
      simp

end runs

/-! ### The zero run -/

/-- Each run the fold of `zeroRun` keeps is one of at least two zeros, from its start
as far as the zeros go. -/
theorem zeroRun_run {groups : List Nat} {start stop : Nat} (found : zeroRun groups = some (start, stop)) :
    stop = start + ((groups.drop start).takeWhile (· == 0)).length ∧ 2 ≤ stop - start := by
  unfold zeroRun at found
  refine List.foldlRecOn (motive := fun best => ∀ run : Nat × Nat, best = some run →
      run.2 = run.1 + ((groups.drop run.1).takeWhile (· == 0)).length ∧ 2 ≤ run.2 - run.1)
    _ _ (by simp) ?_ (start, stop) found
  intro best kept i _ run chosen
  dsimp only at chosen
  split_ifs at chosen with longer
  · cases chosen
    exact ⟨rfl, by omega⟩
  · exact kept run chosen

theorem takeWhile_eq_replicate_zero (groups : List Nat) :
    groups.takeWhile (· == 0) = List.replicate (groups.takeWhile (· == 0)).length 0 :=
  List.eq_replicate_iff.mpr ⟨rfl, fun g member => by simpa using List.mem_takeWhile_imp member⟩

/-- The groups are the ones before the run, the run's zeros, and the ones after it. -/
theorem zeroRun_split {groups : List Nat} {start stop : Nat} (found : zeroRun groups = some (start, stop)) :
    2 ≤ stop - start ∧ stop ≤ groups.length ∧
      groups = groups.take start ++ List.replicate (stop - start) 0 ++ groups.drop stop := by
  obtain ⟨run, two⟩ := zeroRun_run found
  obtain ⟨length, rfl⟩ : ∃ k, stop = start + k := ⟨_, run⟩
  rw [Nat.add_sub_cancel_left] at two ⊢
  -- the zeros are the first `length` groups from the start on
  have front := List.takeWhile_prefix (· == 0) (l := groups.drop start)
  have zeros : (groups.drop start).take length = List.replicate length 0 := by
    rw [Nat.add_left_cancel run, ← List.prefix_iff_eq_take.mp front]
    exact takeWhile_eq_replicate_zero _
  have within := front.length_le
  rw [List.length_drop] at within
  refine ⟨two, by omega, ?_⟩
  rw [List.append_assoc, ← zeros, ← List.drop_drop, List.take_append_drop, List.take_append_drop]

/-! ### Printed IPv6 addresses parse back -/

/-- Eight groups and no `::`. -/
theorem parseIPv6_joinGroups {groups : List Nat} (eight : groups.length = 8) (small : ∀ g ∈ groups, g < 2 ^ 16) :
    parseIPv6 (joinGroups groups) = some (groups.flatMap groupBytes) := by
  obtain ⟨value, rest, rfl⟩ : ∃ v r, groups = v :: r := List.exists_cons_of_ne_nil (by simp [← List.length_pos_iff, eight])
  obtain ⟨t, joined⟩ := joinGroups_cons value rest
  have notLeading : ¬ (joinGroups (value :: rest)).take 2 = [58, 58] := by
    rw [joined]
    exact take_two_hexGroup value t
  unfold parseIPv6
  simp only [notLeading, if_false, false_and]
  have full : ¬ ((value :: rest).flatMap groupBytes).length < 16 := by
    rw [length_flatMap_groupBytes, eight]
    omega
  rw [parseGroups_joinGroups (by simp) small (by omega) none [], List.nil_append]
  generalize (value :: rest).flatMap groupBytes = bytes at full
  simp [full]

/-- The groups before and after a `::`: the zeros fill what the two runs leave of the
sixteen bytes. -/
theorem parseIPv6_ellipsis {front back : List Nat} (small : ∀ g ∈ front ++ back, g < 2 ^ 16)
    (room : front.length + back.length ≤ 6) :
    parseIPv6 (joinGroups front ++ [58, 58] ++ joinGroups back) =
      some (front.flatMap groupBytes ++ List.replicate (16 - 2 * (front.length + back.length)) 0 ++
        back.flatMap groupBytes) := by
  have frontLength := length_flatMap_groupBytes front
  have backLength := length_flatMap_groupBytes back
  unfold parseIPv6
  cases front with
  | nil =>
    -- a leading `::`
    have leading : ([58, 58] ++ joinGroups back).take 2 = [58, 58] := rfl
    have dropped : ([58, 58] ++ joinGroups back).drop 2 = joinGroups back := rfl
    rw [joinGroups_nil, List.nil_append]
    simp only [leading, dropped, if_true, true_and]
    cases back with
    | nil => simp
    | cons first back =>
      obtain ⟨t, joined⟩ := joinGroups_cons first back
      have after : joinGroups (first :: back) ≠ [] := by simp [joined, hexGroup_ne_nil]
      rw [if_neg after, parseGroups_joinGroups (by simp) (by simpa using small) (by simp at room ⊢; omega)]
      simp only [List.flatMap_nil, List.nil_append, List.length_nil, Nat.zero_add]
      generalize (first :: back).flatMap groupBytes = bytes at backLength
      simp only [List.length_nil, List.length_cons, Nat.zero_add] at room backLength
      simp [backLength]
      omega
  | cons value front =>
    obtain ⟨t, joined⟩ := joinGroups_cons value front
    have notLeading : ¬ (joinGroups (value :: front) ++ [58, 58] ++ joinGroups back).take 2 = [58, 58] := by
      rw [joined, List.append_assoc, List.append_assoc]
      exact take_two_hexGroup value _
    simp only [notLeading, if_false, false_and]
    rw [List.append_assoc, List.cons_append, List.cons_append, List.nil_append,
      parseGroups_ellipsis (by simp) small (by omega) []]
    simp only [List.nil_append]
    generalize (value :: front).flatMap groupBytes = frontBytes at frontLength
    generalize back.flatMap groupBytes = backBytes at backLength
    simp only [List.length_cons] at room frontLength
    simp [frontLength, backLength]
    omega

/-- `string6` of sixteen bytes parses back as those bytes. -/
theorem parseIPv6_ipv6String {ip : List UInt8} (sixteen : ip.length = 16) : parseIPv6 (ipv6String ip) = some ip := by
  have named : groupsOf 8 ip = List.map _ (List.range 8) := rfl
  have bytes := flatMap_groupBytes_groupsOf (show ip.length = 2 * 8 by rw [sixteen])
  have eight : (groupsOf 8 ip).length = 8 := by simp [groupsOf]
  have small : ∀ g ∈ groupsOf 8 ip, g < 2 ^ 16 := fun g => lt_of_mem_groupsOf
  unfold ipv6String
  dsimp only
  rw [← named]
  generalize groupsOf 8 ip = groups at bytes eight small
  subst bytes
  split
  · exact parseIPv6_joinGroups eight small
  · next start stop found =>
    obtain ⟨two, within, split⟩ := zeroRun_split found
    have smallParts : ∀ g ∈ groups.take start ++ groups.drop stop, g < 2 ^ 16 := by
      intro g member
      rcases List.mem_append.mp member with member | member
      · exact small g (List.mem_of_mem_take member)
      · exact small g (List.mem_of_mem_drop member)
    rw [parseIPv6_ellipsis smallParts (by simp; omega)]
    -- the zeros the parser fills in are the zero run's bytes
    conv_rhs => rw [split]
    simp only [List.flatMap_append, flatMap_groupBytes_replicate, List.length_take, List.length_drop, eight]
    rw [show 16 - 2 * (min start 8 + (8 - stop)) = 2 * (stop - start) by omega]

/-! ### An IPv4 address after IPv6 groups -/

theorem isHexDigit_of_isDigit {b : UInt8} (digit : isDigit b = true) : isHexDigit b = true := by
  grind [isDigit, isHexDigit]

theorem startsHex_ipv4String {four : List UInt8} (length : four.length = 4) :
    ∀ c, (ipv4String four).head? = some c → isHexDigit c = true := by
  obtain ⟨a, b, c, d, rfl⟩ := List.length_eq_four.mp length
  intro x first
  rw [ipv4String_eq, List.head?_append_of_ne_nil _ (itoa_ne_nil _)] at first
  exact isHexDigit_of_isDigit (isDigit_of_mem_itoa (List.mem_of_mem_head? first))

/-- The first field of an embedded IPv4 address is read as digits, and the dot after
it hands the whole text to `parseIPv4`. -/
theorem parseGroups_ipv4String {four : List UInt8} (length : four.length = 4) (fuel e : Nat) {ip : List UInt8}
    (room : ip.length + 4 ≤ 16) :
    parseGroups (fuel + 1) (ipv4String four) (some e) ip = some (ip ++ four, some e, []) := by
  obtain ⟨a, b, c, d, rfl⟩ := List.length_eq_four.mp length
  have field : (itoa a.toNat).takeWhile isHexDigit = itoa a.toNat :=
    List.takeWhile_eq_self_iff.mpr fun x member => isHexDigit_of_isDigit (isDigit_of_mem_itoa member)
  have digits : (ipv4String [a, b, c, d]).takeWhile isHexDigit = itoa a.toNat := by
    rw [ipv4String_eq, List.takeWhile_append, field, if_pos rfl]
    simp [isHexDigit]
  have short : ¬ 4 < (itoa a.toNat).length :=
    Nat.not_lt.mpr ((length_itoa_le_iff (by decide)).mpr (by have := a.toNat_lt; omega))
  have dot : ((ipv4String [a, b, c, d]).drop (itoa a.toNat).length).head? = some 46 := by
    rw [ipv4String_eq, List.drop_left]
    rfl
  rw [parseGroups, digits]
  simp only [itoa_ne_nil, short, or_self, if_false, dot, if_true, Option.isNone_some, Bool.false_eq_true,
    false_and, Nat.not_lt.mpr room, parseIPv4_ipv4String (show [a, b, c, d].length = 4 from rfl), Option.map_some]

/-! ### Printed addresses parse back -/

theorem parseAddr_of_dot {s : List UInt8} (first : s.find? (fun b => b == 46 || b == 58 || b == 37) = some 46) :
    parseAddr s = parseIPv4 s := by
  rw [parseAddr, first]
  rfl

theorem parseAddr_of_colon {s : List UInt8} (first : s.find? (fun b => b == 46 || b == 58 || b == 37) = some 58)
    (noZone : 37 ∉ s) : parseAddr s = parseIPv6 s := by
  have whole : s.takeWhile (· != 37) = s :=
    List.takeWhile_eq_self_iff.mpr fun b member => by simpa using fun same : b = 37 => noZone (same ▸ member)
  rw [parseAddr, first]
  simp only [whole, noZone, false_and, if_false]

theorem parseAddr_ipv4String {four : List UInt8} (length : four.length = 4) : parseAddr (ipv4String four) = some four := by
  obtain ⟨a, b, c, d, rfl⟩ := List.length_eq_four.mp length
  rw [parseAddr_of_dot (by rw [ipv4String_eq, find?_itoa_append fun b digit => by grind [isDigit]]; rfl),
    parseIPv4_ipv4String rfl]

/-- `::ffff:` and the dotted address read back as the IPv4-mapped address. -/
theorem parseAddr_mapped {four : List UInt8} (length : four.length = 4) :
    parseAddr (ascii "::ffff:" ++ ipv4String four) = some (v4InV6Prefix ++ four) := by
  obtain ⟨a, b, c, d, rfl⟩ := List.length_eq_four.mp length
  have hex : hexGroup 65535 = [102, 102, 102, 102] := by decide
  have text : ascii "::ffff:" ++ ipv4String [a, b, c, d] =
      58 :: 58 :: (hexGroup 65535 ++ 58 :: ipv4String [a, b, c, d]) := by
    simp [ascii, byteOf, hex]
  have noZone : (37 : UInt8) ∉ ipv4String [a, b, c, d] := not_mem_ipv4String (by decide) (by decide) rfl
  have nonempty : ipv4String [a, b, c, d] ≠ [] := by simp [ipv4String_eq]
  rw [text, parseAddr_of_colon rfl (by simp [hex, noZone])]
  unfold parseIPv6
  simp only [List.take_succ_cons, List.take_zero, List.drop_succ_cons, List.drop_zero, if_true, true_and,
    List.append_eq_nil_iff, hexGroup_ne_nil, false_and, if_false]
  rw [parseGroups_separator 7 (some 0) [] (by decide) nonempty (startsHex_ipv4String rfl),
    parseGroups_ipv4String rfl 6 0 (by decide)]
  rfl

theorem hexOrColon_joinGroups (groups : List Nat) : ∀ b ∈ joinGroups groups, isHexDigit b = true ∨ b = 58 := by
  refine forall_mem_intercalate (fun b member => .inr (List.mem_singleton.mp member)) ?_
  intro piece member b within
  obtain ⟨value, -, rfl⟩ := List.mem_map.mp member
  exact .inl (isHexDigit_of_mem_hexGroup within)

theorem hexOrColon_ipv6String (ip : List UInt8) : ∀ b ∈ ipv6String ip, isHexDigit b = true ∨ b = 58 := by
  intro b member
  unfold ipv6String at member
  dsimp only at member
  split at member
  · exact hexOrColon_joinGroups _ b member
  · simp only [List.mem_append, List.mem_cons, List.not_mem_nil, or_false] at member
    rcases member with (member | member | member) | member
    · exact hexOrColon_joinGroups _ b member
    · exact .inr member
    · exact .inr member
    · exact hexOrColon_joinGroups _ b member

theorem colon_mem_ipv6String (ip : List UInt8) : 58 ∈ ipv6String ip := by
  have named : groupsOf 8 ip = List.map _ (List.range 8) := rfl
  have eight : (groupsOf 8 ip).length = 8 := by simp [groupsOf]
  unfold ipv6String
  dsimp only
  rw [← named]
  generalize groupsOf 8 ip = groups at eight
  split
  · -- eight groups have colons between them
    obtain ⟨value, next, rest, rfl⟩ : ∃ v n r, groups = v :: n :: r := by
      rcases groups with _ | ⟨v, _ | ⟨n, r⟩⟩
      all_goals simp at eight ⊢
    simp [joinGroups_cons_cons]
  · simp

/-- Hex digits and colons with a colon among them: the first separator is a colon. -/
theorem find?_hexOrColon {s : List UInt8} (chars : ∀ b ∈ s, isHexDigit b = true ∨ b = 58) (colon : 58 ∈ s) :
    s.find? (fun b => b == 46 || b == 58 || b == 37) = some 58 := by
  cases found : s.find? (fun b => b == 46 || b == 58 || b == 37) with
  | none => exact absurd (List.find?_eq_none.mp found 58 colon) (by decide)
  | some x =>
    have separator := List.find?_some found
    rcases chars x (List.mem_of_find?_eq_some found) with hex | rfl
    · have notSeparator : (x == 46 || x == 58 || x == 37) = false := by grind [isHexDigit]
      exact absurd separator (by simp [notSeparator])
    · rfl

theorem parseAddr_ipv6String {ip : List UInt8} (sixteen : ip.length = 16) : parseAddr (ipv6String ip) = some ip := by
  have noZone : (37 : UInt8) ∉ ipv6String ip := fun member => by
    rcases hexOrColon_ipv6String ip 37 member with hex | colon
    · exact absurd hex (by decide)
    · exact absurd colon (by decide)
  rw [parseAddr_of_colon (find?_hexOrColon (hexOrColon_ipv6String ip) (colon_mem_ipv6String ip)) noZone,
    parseIPv6_ipv6String sixteen]

/-- `Addr.String` of a four- or sixteen-byte address parses back as that address. -/
theorem parseAddr_addrString {addr : List UInt8} (valid : addr.length = 4 ∨ addr.length = 16) :
    parseAddr (addrString addr) = some addr := by
  unfold addrString
  split
  · next four => exact parseAddr_ipv4String four
  split
  · next notFour mapped =>
    have sixteen : addr.length = 16 := valid.resolve_left notFour
    rw [parseAddr_mapped (by simp [sixteen]), ← mapped, List.take_append_drop]
  · next notFour _ => exact parseAddr_ipv6String (valid.resolve_left notFour)

theorem not_mem_addrString {addr : List UInt8} (valid : addr.length = 4 ∨ addr.length = 16) :
    (37 : UInt8) ∉ addrString addr := by
  unfold addrString
  split
  · next four => exact not_mem_ipv4String (by decide) (by decide) four
  split
  · next notFour _ =>
    have sixteen : addr.length = 16 := valid.resolve_left notFour
    have noZone := not_mem_ipv4String (x := 37) (by decide) (by decide) (show (addr.drop 12).length = 4 by simp [sixteen])
    simp [ascii, byteOf, noZone]
  · intro member
    rcases hexOrColon_ipv6String addr 37 member with hex | colon
    · exact absurd hex (by decide)
    · exact absurd colon (by decide)

/-- The length after the slash: digits, and no leading zero unless it is the only one. -/
theorem canonical_itoa (bits : Nat) :
    ¬ (1 < (itoa bits).length ∧ ((itoa bits).headD 0 < 49 ∨ 57 < (itoa bits).headD 0)) := by
  rintro ⟨long, outside⟩
  have positive : 0 < bits := by
    rcases Nat.eq_zero_or_pos bits with zero | positive
    · subst zero
      exact absurd long (by decide)
    · exact positive
  obtain ⟨first, rest, written⟩ := List.exists_cons_of_ne_nil (itoa_ne_nil bits)
  have digit := isDigit_of_mem_itoa (written ▸ List.mem_cons_self : first ∈ itoa bits)
  have notZero : first ≠ 48 := fun zero => head_itoa_ne_zero positive (by rw [written, zero]; rfl)
  rw [written, List.headD_cons] at outside
  grind [isDigit]

/-- `ParsePrefix` reads `Prefix.String` of a valid prefix back as that prefix. -/
theorem parsePrefix_prefixString {addr : List UInt8} {bits : Nat}
    (valid : (addr.length = 4 ∨ addr.length = 16) ∧ bits ≤ 8 * addr.length) :
    parsePrefix (prefixString addr bits) = some (addr, bits) := by
  have inRange : ¬ ((bits : Int) < 0 ∨ 8 * addr.length < (bits : Int)) := by omega
  have small : bits < 2 ^ 63 := by omega
  -- the text splits at the slash after the address
  have bitsText : (addrString addr ++ 47 :: itoa bits).drop ((addrString addr).length + 1) = itoa bits := by
    rw [← List.drop_drop, List.drop_left]
    rfl
  rw [prefixString, if_pos valid]
  unfold parsePrefix
  rw [lastIndexByte_append _ (not_mem_itoa (by decide) bits)]
  simp only [List.take_left', bitsText, parseAddr_addrString valid.1, atoi_itoa small]
  simp only [not_mem_addrString valid.1, canonical_itoa bits, inRange, if_false, Int.toNat_natCast]

end NetIP
