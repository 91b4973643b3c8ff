import Mathlib

/-! A text protocol read line by line as Go reads it: `bufio.Scanner` with its
default split function `ScanLines`, over a whole input held in memory, and
`strings.Cut` to take a line apart at a separator.

`ScanLines` gives the bytes before each newline with one final carriage return
dropped, and the bytes after the last newline when there are any. The scanner's
buffer grows to `MaxScanTokenSize` and no further: a line whose bytes fill it
before its newline is found stops the scan with `ErrTooLong`, after the lines
before it were given. Lines written with a newline after each come back as they
were (`scanLines_unlines`).
-/

set_option autoImplicit false

namespace GoText

def newline : UInt8 := 10

def carriageReturn : UInt8 := 13

/-- `bufio.MaxScanTokenSize`. -/
def maxScanTokenSize : Nat := 64 * 1024

/-- `dropCR`. -/
def dropCR (data : List UInt8) : List UInt8 :=
  if data.getLast? = some carriageReturn then data.dropLast else data

/-- The tokens `Scan` gives for the pieces of the input between newlines, the last
one unterminated, and whether the scan stops with `ErrTooLong`. -/
def scanPieces : List (List UInt8) → List (List UInt8) × Bool
  | [] => ([], false)
  | [last] =>
    if maxScanTokenSize ≤ last.length then ([], true)
    -- at the end of the input an empty piece is no token
    else if last = [] then ([], false) else ([dropCR last], false)
  | line :: next :: rest =>
    if maxScanTokenSize ≤ line.length then ([], true)
    else
      let (tokens, tooLong) := scanPieces (next :: rest)
      (dropCR line :: tokens, tooLong)

/-- The tokens of `Scan` with `ScanLines` over an input, and whether `Err` is
`ErrTooLong` once `Scan` returns false. -/
def scanLines (input : List UInt8) : List (List UInt8) × Bool :=
  scanPieces (input.splitOn newline)

/-- The input a writer makes of lines by ending each with a newline. -/
def unlines (lines : List (List UInt8)) : List UInt8 :=
  lines.flatMap (· ++ [newline])

/-- `strings.Cut` at a one-byte separator: the bytes before its first occurrence
and the bytes after it. -/
def cut (s : List UInt8) (sep : UInt8) : Option (List UInt8 × List UInt8) :=
  match s.idxOf? sep with
  | none => none
  | some i => some (s.take i, s.drop (i + 1))

/-- A line a scanner gives back unchanged: no newline in it, no final carriage
return, and short enough for the buffer. -/
structure Line (line : List UInt8) : Prop where
  noNewline : newline ∉ line
  noReturn : line.getLast? ≠ some carriageReturn
  short : line.length < maxScanTokenSize

/-- Text that fits in a line next to other such text: no line break in it, and
less than half the buffer. -/
structure Field (text : List UInt8) : Prop where
  noNewline : newline ∉ text
  noReturn : carriageReturn ∉ text
  short : 2 * text.length < maxScanTokenSize

theorem Field.line {key value : List UInt8} (keyField : Field key) (valueField : Field value) :
    Line (key ++ value) where
  noNewline member := (List.mem_append.mp member).elim keyField.noNewline valueField.noNewline
  noReturn last := by
    have member := List.mem_of_getLast? last
    exact (List.mem_append.mp member).elim keyField.noReturn valueField.noReturn
  short := by
    have key := keyField.short
    have value := valueField.short
    rw [List.length_append]
    omega

theorem Field.of_printable {text : List UInt8} (printable : ∀ b ∈ text, 32 ≤ b)
    (short : 2 * text.length < maxScanTokenSize) : Field text where
  noNewline member := absurd (printable _ member) (by decide)
  noReturn member := absurd (printable _ member) (by decide)
  short

theorem Field.append {left right : List UInt8} (leftField : Field left) (rightField : Field right)
    (short : 2 * (left.length + right.length) < maxScanTokenSize) : Field (left ++ right) where
  noNewline member := (List.mem_append.mp member).elim leftField.noNewline rightField.noNewline
  noReturn member := (List.mem_append.mp member).elim leftField.noReturn rightField.noReturn
  short := by rwa [List.length_append]

theorem forall_mem_intercalate {α : Type} {p : α → Prop} {sep : List α} (onSep : ∀ b ∈ sep, p b) :
    ∀ {pieces : List (List α)}, (∀ piece ∈ pieces, ∀ b ∈ piece, p b) → ∀ b ∈ sep.intercalate pieces, p b
  | [], _, _, member => absurd member List.not_mem_nil
  | [piece], onPieces, b, member => onPieces piece (by simp) b (by simpa using member)
  | piece :: next :: rest, onPieces, b, member => by
    rw [List.intercalate_cons_cons, List.mem_append, List.mem_append] at member
    rcases member with (member | member) | member
    · exact onPieces piece (by simp) b member
    · exact onSep b member
    · exact forall_mem_intercalate onSep (fun other within => onPieces other (List.mem_cons_of_mem _ within))
        b member

theorem length_intercalate_le {α : Type} (sep : List α) {k : Nat} :
    ∀ {pieces : List (List α)}, (∀ piece ∈ pieces, piece.length ≤ k) →
      (sep.intercalate pieces).length ≤ pieces.length * (k + sep.length)
  | [], _ => by simp
  | [piece], bounded => by
    have := bounded piece (by simp)
    simp only [List.intercalate_singleton, List.length_singleton]
    omega
  | piece :: next :: rest, bounded => by
    have first := bounded piece (by simp)
    have others := length_intercalate_le sep
      (fun other within => bounded other (List.mem_cons_of_mem piece within))
    simp only [List.intercalate_cons_cons, List.length_append, List.length_cons] at others ⊢
    rw [Nat.add_one_mul]
    omega

@[simp] theorem unlines_nil : unlines [] = [] := rfl

@[simp] theorem unlines_cons (line : List UInt8) (lines : List (List UInt8)) :
    unlines (line :: lines) = line ++ newline :: unlines lines := by
  simp [unlines]

theorem dropCR_of_line {line : List UInt8} (valid : Line line) : dropCR line = line := by
  simp [dropCR, valid.noReturn]

theorem splitOn_unlines {lines : List (List UInt8)} (valid : ∀ line ∈ lines, Line line) :
    (unlines lines).splitOn newline = lines ++ [[]] := by
  induction lines with
  | nil => rfl
  | cons line lines ih =>
    rw [unlines_cons, List.splitOn_append_cons_self_of_not_mem (valid line (by simp)).noNewline,
      ih fun other member => valid other (List.mem_cons_of_mem _ member)]
    rfl

theorem scanPieces_lines {lines : List (List UInt8)} (valid : ∀ line ∈ lines, Line line) :
    scanPieces (lines ++ [[]]) = (lines, false) := by
  induction lines with
  | nil => rfl
  | cons line lines ih =>
    have first := valid line (by simp)
    have fits : ¬ maxScanTokenSize ≤ line.length := Nat.not_le.mpr first.short
    obtain ⟨next, rest, split⟩ : ∃ next rest, lines ++ [[]] = next :: rest :=
      List.exists_cons_of_ne_nil (by simp)
    rw [List.cons_append, split, scanPieces, if_neg fits, ← split,
      ih fun other member => valid other (List.mem_cons_of_mem _ member), dropCR_of_line first]

/-- Lines that each end with a newline are scanned back as they were written. -/
theorem scanLines_unlines {lines : List (List UInt8)} (valid : ∀ line ∈ lines, Line line) :
    scanLines (unlines lines) = (lines, false) := by
  rw [scanLines, splitOn_unlines valid, scanPieces_lines valid]

theorem cut_append {key value : List UInt8} {sep : UInt8} (absent : sep ∉ key) :
    cut (key ++ sep :: value) sep = some (key, value) := by
  have found : (key ++ sep :: value).idxOf? sep = some key.length := by
    induction key with
    | nil => simp [List.idxOf?_cons]
    | cons b key ih =>
      have other : b ≠ sep := fun same => absent (same ▸ List.mem_cons_self)
      rw [List.cons_append, List.idxOf?_cons, if_neg (by simpa using other),
        ih fun member => absent (List.mem_cons_of_mem _ member)]
      rfl
  simp [cut, found]

end GoText
