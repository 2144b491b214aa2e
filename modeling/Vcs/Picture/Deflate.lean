/-!
# Compression

Rows of bytes as a deflate stream.  Neighbouring pixels are mostly alike, so that rows of differences are
mostly zero: one code that suits such rows serves for all pictures, and nothing but runs of zeros is
abbreviated.  `flatMap_bytes_cut` says that a row is cut into pieces without loss, and `sum_codeLengths` that
the code is complete.
-/

namespace Vcs.Picture.Deflate

/-- A piece of a row. -/
inductive Piece where
  | literal (byte : UInt8)
  | zeros (length : Nat)
  deriving DecidableEq, Repr

/-- The bytes that a piece stands for. -/
def Piece.bytes : Piece → List UInt8
  | literal byte => [byte]
  | zeros length => List.replicate length 0

/-- Number of zeros that some bytes start with. -/
def leadingZeros : List UInt8 → Nat
  | 0 :: bytes => leadingZeros bytes + 1
  | _ => 0

/-- A run of zeros, if it is one. -/
def zeros (length : Nat) : List Piece :=
  if length = 0 then [] else [.zeros length]

/-- Cuts a group of bytes behind a run of zeros into pieces and the zeros it ends with. -/
def cutGroup (run : Nat) (group : List UInt8) : List Piece × Nat :=
  if leadingZeros group = group.length then ([], run + group.length)
  else
    let lead := if run = 0 then 0 else leadingZeros group
    let body := group.drop lead
    let trail := leadingZeros body.reverse
    (zeros (run + lead) ++ (body.take (body.length - trail)).map .literal, trail)

/-- Cuts a row behind a run of zeros.  A run starts where a group of eight bytes ends in zeros; the bytes
behind the last whole group are literals. -/
def cut (run : Nat) : List UInt8 → List Piece
  | a :: b :: c :: d :: e :: f :: g :: h :: rest =>
    let (pieces, run) := cutGroup run [a, b, c, d, e, f, g, h]
    pieces ++ cut run rest
  | rest => zeros run ++ rest.map .literal

/-- A number in bits, the lowest first. -/
def lowestFirst (width value : Nat) : List Bool :=
  (List.range width).map value.testBit

/-- Widths of the code words, each with the number of consecutive symbols that have it. -/
def codeLengths : Array Nat :=
  let runs := [(1, 2), (1, 3), (1, 4), (2, 5), (2, 6), (3, 7), (5, 8), (7, 9), (9, 10), (12, 11),
    (171, 12), (10, 11), (1, 10), (1, 11), (9, 10), (5, 9), (1, 8), (1, 9), (5, 8), (3, 7), (3, 6),
    (1, 5), (1, 4), (1, 3), (3, 12), (2, 9), (1, 11), (1, 10), (2, 11), (1, 10), (6, 11), (1, 12),
    (1, 11), (11, 12), (1, 9)]
  (runs.flatMap fun (count, length) ↦ List.replicate count length).toArray

/-- The word of a symbol, highest bit first.  Shorter words come first, and words of one width are numbered in
the order of their symbols. -/
def codeWord (symbol : Nat) : List Bool :=
  let width := codeLengths.getD symbol 0
  let number := (List.range codeLengths.size).foldl
    (fun number other ↦
      let length := codeLengths.getD other 0
      if length < width ∨ length = width ∧ other < symbol then number + (1 <<< (width - length))
      else number)
    0
  (lowestFirst width number).reverse

/-- The words of all symbols. -/
def codeTable : Array (List Bool) :=
  (Array.range codeLengths.size).map codeWord

/-- Looks up the word of a symbol. -/
def word (symbol : Nat) : List Bool :=
  codeTable.getD symbol []

/-- The symbol behind the last piece. -/
abbrev endSymbol : Nat := 256

/-- Longest repetition, and its symbol. -/
abbrev longest : Nat := 258

abbrev longestSymbol : Nat := 285

/-- The byte before, `length` more times: a symbol for a range of lengths, the place in the range, and the one
bit that the only distance has. -/
def repetition (length : Nat) : List Bool :=
  if length = longest then word longestSymbol ++ [false]
  else
    let offset := length - 3
    let width := offset.log2 - 2
    word (endSymbol + 1 + 4 * width + offset >>> width) ++ lowestFirst width offset ++ [false]

/-- A piece in bits.  A run is a zero and its repetitions, the last of them spelled out if it is short. -/
def Piece.bits : Piece → List Bool
  | literal byte => word byte.toNat
  | zeros length =>
    let rest := (length - 1) % longest
    let repeated := (List.replicate ((length - 1) / longest) (repetition longest)).flatten
    word 0 ++ repeated ++
      if rest > 4 then repetition rest else (List.replicate rest (word 0)).flatten

/-- Start of the only block: that it is the last one, that it brings a code, and the code lengths. -/
def blockHead : List Bool :=
  let bytes := [237, 192, 3, 160, 36, 89, 150, 198, 241, 255, 119, 238, 141, 200, 204, 167, 114, 75, 99,
    174, 109, 219, 182, 109, 219, 182, 109, 219, 182, 109, 105, 140, 158, 150, 74, 175, 158, 50, 51, 34,
    238, 249, 118, 183, 106, 122, 166, 135, 59, 107, 213]
  bytes.flatMap (lowestFirst 8) ++ lowestFirst 5 15

/-- A byte from its bits, the lowest first. -/
def byteOf : List Bool → UInt8
  | [] => 0
  | bit :: bits => (if bit then 1 else 0) + 2 * byteOf bits

/-- Appends bits, eight to a byte. -/
def pack (bytes : ByteArray) : List Bool → ByteArray
  | a :: b :: c :: d :: e :: f :: g :: h :: rest =>
    pack (bytes.push (byteOf [a, b, c, d, e, f, g, h])) rest
  | [] => bytes
  | rest => bytes.push (byteOf rest)

/-- Compresses some rows. -/
def compress (rows : List (List UInt8)) : ByteArray :=
  let pieces := rows.flatMap (cut 0)
  pack ByteArray.empty (blockHead ++ pieces.flatMap Piece.bits ++ word endSymbol)

/-- Most bytes that a stored block holds. -/
abbrev blockSize : Nat := 65535

/-- A number of sixteen bits as two bytes, the lowest first. -/
def littleEndian (value : UInt16) : ByteArray :=
  ⟨#[value.toUInt8, (value >>> 8).toUInt8]⟩

/-- A stored block: a mark on the last one, the size, its complement and the bytes themselves. -/
def storedBlock (last : Bool) (data : ByteArray) : ByteArray :=
  let size := UInt16.ofNat data.size
  (ByteArray.empty.push (if last then 1 else 0)) ++ littleEndian size ++ littleEndian (~~~size) ++ data

/-- Data as it is in stored blocks, the last one holding what the others leave. -/
def store (data : ByteArray) : ByteArray :=
  let full := (data.size - 1) / blockSize
  let before := (Array.range full).foldl
    (fun bytes i ↦ bytes ++ storedBlock false (data.extract (i * blockSize) ((i + 1) * blockSize)))
    ByteArray.empty
  before ++ storedBlock true (data.extract (full * blockSize) data.size)

/-! ## Laws -/

/-- The words leave no sequence of bits unused. -/
theorem sum_codeLengths :
    codeLengths.foldl (fun total length ↦ total + (1 <<< (12 - length))) 0 = 1 <<< 12 := by
  decide +kernel

theorem replicate_append_drop (bytes : List UInt8) :
    List.replicate (leadingZeros bytes) 0 ++ bytes.drop (leadingZeros bytes) = bytes := by
  fun_induction leadingZeros bytes with
  | case1 bytes ih => simpa [List.replicate_succ] using ih
  | case2 bytes h => simp

theorem take_append_replicate (bytes : List UInt8) :
    bytes.take (bytes.length - leadingZeros bytes.reverse) ++
      List.replicate (leadingZeros bytes.reverse) 0 = bytes := by
  have h := congrArg List.reverse (replicate_append_drop bytes.reverse)
  simpa [List.drop_reverse] using h

theorem flatMap_bytes_literal (bytes : List UInt8) :
    (bytes.map Piece.literal).flatMap Piece.bytes = bytes := by
  induction bytes with
  | nil => rfl
  | cons byte bytes ih => simp [Piece.bytes, ih]

theorem flatMap_bytes_zeros (length : Nat) :
    (zeros length).flatMap Piece.bytes = List.replicate length 0 := by
  unfold zeros
  split
  · simp [*]
  · simp [Piece.bytes]

/-- The pieces of a group and the zeros behind them make up the group and the zeros before it. -/
theorem flatMap_bytes_cutGroup (run : Nat) (group : List UInt8) :
    (cutGroup run group).1.flatMap Piece.bytes ++ List.replicate (cutGroup run group).2 0 =
      List.replicate run 0 ++ group := by
  unfold cutGroup
  split
  next h =>
    have hzero := replicate_append_drop group
    rw [h, List.drop_length, List.append_nil] at hzero
    rw [List.flatMap_nil, List.nil_append, ← List.replicate_append_replicate, hzero]
  next h =>
    simp only [List.flatMap_append, flatMap_bytes_zeros, flatMap_bytes_literal, List.append_assoc,
      take_append_replicate, ← List.replicate_append_replicate]
    split
    · simp
    · rw [replicate_append_drop]

/-- The pieces of a row make up the row and the zeros before it. -/
theorem flatMap_bytes_cut (run : Nat) (row : List UInt8) :
    (cut run row).flatMap Piece.bytes = List.replicate run 0 ++ row := by
  fun_induction cut run row with
  | case1 run a b c d e f g h rest pieces run' heq ih =>
    have hgroup := flatMap_bytes_cutGroup run [a, b, c, d, e, f, g, h]
    rw [heq] at hgroup
    rw [List.flatMap_append, ih, ← List.append_assoc, hgroup]
    simp
  | case2 run rest h => simp [flatMap_bytes_zeros, flatMap_bytes_literal]

end Vcs.Picture.Deflate
