/-
This file models the codec of addresses. Bytes are written in blocks of eight, each
as eleven symbols of base 58, and fewer bytes at the end as fewer symbols.

What is encoded is decoded again. Not every string that is decoded is what encoding
gives: symbols are compared after they are cut to bytes, and the largest value that
a full block is accepted with is one too large.
-/

import LightWallet.Frontend.Strings

namespace LightWallet.Frontend.CnBase58

open Positional (digits value)

/-! ### The script -/

/-- `alphabet_str`. -/
def alphabetStr : JsString :=
  JsString.ofString "123456789ABCDEFGHJKLMNPQRSTUVWXYZabcdefghijkmnopqrstuvwxyz"

/-- `alphabet`, the code units of `alphabet_str`. -/
def alphabet : List UInt8 := alphabetStr.map UInt16.toUInt8

/-- `encoded_block_sizes`. -/
def encodedBlockSizes : List Nat := [0, 2, 3, 5, 6, 7, 9, 10, 11]

/-- `full_block_size`. -/
def fullBlockSize : Nat := 8

/-- `full_encoded_block_size`. -/
def fullEncodedBlockSize : Nat := 11

/-- `UINT64_MAX`, which is one more than the largest number of 64 bits. -/
def uint64Max : Nat := 2 ^ 64

/-- `strtobin`. An element of a `Uint8Array` keeps the lower byte of a code unit. -/
def strtobin (str : JsString) : List UInt8 := str.map UInt16.toUInt8

/-- `bintostr`. -/
def bintostr (bin : List UInt8) : JsString := bin.map UInt8.toUInt16

/-- `data.subarray(start, stop)`. -/
def subarray (data : List UInt8) (start stop : Nat) : List UInt8 :=
  (data.drop start).take (stop - start)

/-- `buf[position] = byte`. Writes outside the array do nothing. -/
def put (buf : List UInt8) (position : Int) (byte : UInt8) : List UInt8 :=
  if position < 0 then buf else buf.set position.toNat byte

/-- `buf.set(bytes, index)`. -/
def setAt (buf bytes : List UInt8) (index : Nat) : List UInt8 :=
  buf.take index ++ bytes ++ buf.drop (index + bytes.length)

/-- `uint8_be_to_64`. The cases fall through, each with one byte. -/
def uint8BeTo64 (data : List UInt8) : Except String Nat :=
  if data.length < 1 ∨ data.length > 8 then throw "Invalid input length"
  else pure (data.foldl (fun res byte => res * 2 ^ 8 + byte.toNat) 0)

/-- `uint64_to_8be`. The loop writes one remainder after the other, the first one last. -/
def uint64To8be (num size : Nat) : Except String (List UInt8) :=
  if size < 1 ∨ size > 8 then throw "Invalid input length"
  else pure ((digits (2 ^ 8) size num).map UInt8.ofNat)

/-- The loop of `encode_block`. -/
def writeRemainders (num : Nat) (buf : List UInt8) (position : Int) : List UInt8 :=
  if num = 0 then buf
  else writeRemainders (num / 58) (put buf position (alphabet.getD (num % 58) 0)) (position - 1)
termination_by num
decreasing_by exact Nat.div_lt_self (Nat.pos_of_ne_zero (by assumption)) (by decide)

/-- `encode_block`. -/
def encodeBlock (data buf : List UInt8) (index : Nat) : Except String (List UInt8) := do
  if data.length < 1 ∨ data.length > fullEncodedBlockSize then
    throw ("Invalid block length: " ++ toString data.length)
  let num ← uint8BeTo64 data
  pure (writeRemainders num buf (index + ((encodedBlockSizes.getD data.length 0 : Int) - 1)))

/-- `cnBase58.encode`. -/
def encode (hex : JsString) : Except String JsString := do
  let data ← hextobin hex
  if data.length = 0 then return []
  let fullBlockCount := data.length / fullBlockSize
  let lastBlockSize := data.length % fullBlockSize
  let resSize := fullBlockCount * fullEncodedBlockSize + encodedBlockSizes.getD lastBlockSize 0
  let res ← (List.range fullBlockCount).foldlM (fun res i =>
      encodeBlock (subarray data (i * fullBlockSize) (i * fullBlockSize + fullBlockSize)) res
        (i * fullEncodedBlockSize))
    (List.replicate resSize (alphabet.getD 0 0))
  if lastBlockSize > 0 then
    let res ← encodeBlock (subarray data (fullBlockCount * fullBlockSize)
      (fullBlockCount * fullBlockSize + lastBlockSize)) res (fullBlockCount * fullEncodedBlockSize)
    return bintostr res
  return bintostr res

/-- One round of the loop of `decode_block`, on `res_num` and `order`. -/
def decodeSymbol (state : Nat × Nat) (symbol : UInt8) : Except String (Nat × Nat) :=
  match alphabet.idxOf? symbol with
  | none => throw "Invalid symbol"
  | some digit =>
    let product := state.2 * digit + state.1
    if product > uint64Max then throw "Overflow" else pure (product, state.2 * 58)

/-- `decode_block`. -/
def decodeBlock (data buf : List UInt8) (index : Nat) : Except String (List UInt8) := do
  if data.length < 1 ∨ data.length > fullEncodedBlockSize then
    throw ("Invalid block length: " ++ toString data.length)
  let resSize := (encodedBlockSizes.idxOf? data.length).getD 0
  if resSize ≤ 0 then throw "Invalid block size"
  let (resNum, _) ← data.reverse.foldlM decodeSymbol (0, 1)
  if resSize < fullBlockSize ∧ 2 ^ (8 * resSize) ≤ resNum then throw "Overflow 2"
  let bytes ← uint64To8be resNum resSize
  pure (setAt buf bytes index)

/-- `cnBase58.decode`. -/
def decode (str : JsString) : Except String JsString := do
  let enc := strtobin str
  if enc.length = 0 then return []
  let fullBlockCount := enc.length / fullEncodedBlockSize
  let lastBlockSize := enc.length % fullEncodedBlockSize
  match encodedBlockSizes.idxOf? lastBlockSize with
  | none => throw "Invalid encoded length"
  | some lastBlockDecodedSize =>
    let dataSize := fullBlockCount * fullBlockSize + lastBlockDecodedSize
    let data ← (List.range fullBlockCount).foldlM (fun data i =>
        decodeBlock (subarray enc (i * fullEncodedBlockSize)
          (i * fullEncodedBlockSize + fullEncodedBlockSize)) data (i * fullBlockSize))
      (List.replicate dataSize 0)
    if lastBlockSize > 0 then
      let data ← decodeBlock (subarray enc (fullBlockCount * fullEncodedBlockSize)
          (fullBlockCount * fullEncodedBlockSize + lastBlockSize)) data
        (fullBlockCount * fullBlockSize)
      return bintohex data
    return bintohex data

/-! ### Symbols -/

/-- The symbol of a digit. -/
def symbolOf (digit : Nat) : UInt8 := alphabet.getD digit 0

/-- The digit that a symbol stands for. -/
def digitOf (symbol : UInt8) : Nat := (alphabet.idxOf? symbol).getD 0

theorem digitOf_symbolOf {digit : Nat} (small : digit < 58) :
    digitOf (symbolOf digit) = digit := by
  revert digit
  decide +kernel

theorem symbolOf_mem {digit : Nat} (small : digit < 58) : symbolOf digit ∈ alphabet := by
  revert digit
  decide +kernel

theorem length_alphabet : alphabet.length = 58 := by decide +kernel

theorem idxOf?_alphabet {symbol : UInt8} (known : symbol ∈ alphabet) :
    alphabet.idxOf? symbol = some (digitOf symbol) := by
  obtain ⟨digit, found⟩ := Option.isSome_iff_exists.mp (List.isSome_idxOf?.mpr known)
  rw [digitOf, found, Option.getD_some]

theorem digitOf_lt {symbol : UInt8} (known : symbol ∈ alphabet) : digitOf symbol < 58 := by
  obtain ⟨below, _⟩ := List.idxOf?_eq_some_iff.mp (idxOf?_alphabet known)
  exact length_alphabet ▸ below

theorem symbolOf_digitOf {symbol : UInt8} (known : symbol ∈ alphabet) :
    symbolOf (digitOf symbol) = symbol := by
  obtain ⟨below, found, _⟩ := List.idxOf?_eq_some_iff.mp (idxOf?_alphabet known)
  rw [symbolOf, List.getD_eq_getElem?_getD, List.getElem?_eq_getElem below, Option.getD_some, found]

theorem map_digitOf_symbolOf {written : List Nat} (small : ∀ digit ∈ written, digit < 58) :
    (written.map symbolOf).map digitOf = written := by
  rw [List.map_map]
  refine (List.map_congr_left fun digit member => ?_).trans (List.map_id written)
  exact digitOf_symbolOf (small digit member)

theorem map_symbolOf_digitOf {block : List UInt8} (known : ∀ symbol ∈ block, symbol ∈ alphabet) :
    (block.map digitOf).map symbolOf = block := by
  rw [List.map_map]
  refine (List.map_congr_left fun symbol member => ?_).trans (List.map_id block)
  exact symbolOf_digitOf (known symbol member)

theorem map_digitOf_lt {block : List UInt8} (known : ∀ symbol ∈ block, symbol ∈ alphabet) :
    ∀ digit ∈ block.map digitOf, digit < 58 := by
  intro digit member
  obtain ⟨symbol, present, rfl⟩ := List.mem_map.mp member
  exact digitOf_lt (known symbol present)

/-! ### Bytes as digits -/

/-- The number that bytes stand for. -/
def bytesValue (bytes : List UInt8) : Nat := value (2 ^ 8) (bytes.map UInt8.toNat)

/-- The number that symbols stand for. -/
def symbolsValue (block : List UInt8) : Nat := value 58 (block.map digitOf)

/-- The last bytes of a number. -/
def bytesOf (size num : Nat) : List UInt8 := (digits (2 ^ 8) size num).map UInt8.ofNat

@[simp] theorem length_bytesOf (size num : Nat) : (bytesOf size num).length = size := by
  rw [bytesOf, List.length_map, Positional.length_digits]

theorem map_toNat_lt (bytes : List UInt8) : ∀ digit ∈ bytes.map UInt8.toNat, digit < 2 ^ 8 := by
  intro digit member
  obtain ⟨byte, _, rfl⟩ := List.mem_map.mp member
  exact byte.toNat_lt

theorem bytesValue_lt (bytes : List UInt8) : bytesValue bytes < (2 ^ 8) ^ bytes.length := by
  have bound := Positional.value_lt (by decide) (map_toNat_lt bytes)
  rwa [List.length_map] at bound

theorem map_toNat_bytesOf (size num : Nat) :
    (bytesOf size num).map UInt8.toNat = digits (2 ^ 8) size num := by
  rw [bytesOf, List.map_map]
  refine (List.map_congr_left fun digit member => ?_).trans (List.map_id _)
  exact UInt8.toNat_ofNat_of_lt' (Positional.digit_lt (by decide) member)

theorem bytesValue_bytesOf (size num : Nat) :
    bytesValue (bytesOf size num) = num % (2 ^ 8) ^ size := by
  rw [bytesValue, map_toNat_bytesOf, Positional.value_digits]

theorem bytesOf_bytesValue (bytes : List UInt8) :
    bytesOf bytes.length (bytesValue bytes) = bytes := by
  have written := Positional.digits_value (map_toNat_lt bytes)
  rw [List.length_map] at written
  rw [bytesOf, bytesValue, written, List.map_map]
  exact (List.map_congr_left fun byte _ => UInt8.ofNat_toNat).trans (List.map_id bytes)

theorem foldl_bytes (data : List UInt8) (start : Nat) :
    data.foldl (fun res byte => res * 2 ^ 8 + byte.toNat) start =
      start * (2 ^ 8) ^ data.length + bytesValue data := by
  induction data generalizing start with
  | nil =>
    rw [List.foldl_nil, List.length_nil, pow_zero, Nat.mul_one]
    rfl
  | cons byte rest inductionHypothesis =>
    rw [List.foldl_cons, inductionHypothesis, bytesValue, bytesValue, List.map_cons,
      Positional.value_cons, List.length_map, List.length_cons, pow_succ]
    ring

theorem uint8BeTo64_eq {data : List UInt8} (positive : 1 ≤ data.length) (small : data.length ≤ 8) :
    uint8BeTo64 data = .ok (bytesValue data) := by
  rw [uint8BeTo64, if_neg (by omega), foldl_bytes, Nat.zero_mul, Nat.zero_add]
  rfl

theorem uint64To8be_eq {num size : Nat} (positive : 1 ≤ size) (small : size ≤ 8) :
    uint64To8be num size = .ok (bytesOf size num) := by
  rw [uint64To8be, if_neg (by omega)]
  rfl

/-! ### Encoding a block -/

/-- The symbols that a block of bytes is written with. -/
def symbols (block : List UInt8) : List UInt8 :=
  (digits 58 (encodedBlockSizes.getD block.length 0) (bytesValue block)).map symbolOf

@[simp] theorem length_symbols (block : List UInt8) :
    (symbols block).length = encodedBlockSizes.getD block.length 0 := by
  rw [symbols, List.length_map, Positional.length_digits]

/-- There are symbols enough for every block. -/
theorem room (size : Nat) (small : size ≤ 8) :
    (2 ^ 8) ^ size ≤ 58 ^ encodedBlockSizes.getD size 0 := by
  revert size
  decide +kernel

theorem put_last (front rest : List UInt8) (old new : UInt8) :
    put (front ++ old :: rest) front.length new = front ++ new :: rest := by
  rw [put, if_neg (by omega), Int.toNat_natCast, List.set_append_right _ _ (Nat.le_refl _),
    Nat.sub_self, List.set_cons_zero]

/-- The loop fills its part of the array from the right; what it leaves is a zero already. -/
theorem writeRemainders_eq {width num : Nat} (fits : num < 58 ^ width) (front rest : List UInt8) :
    writeRemainders num (front ++ (List.replicate width (symbolOf 0) ++ rest))
        (front.length + ((width : Int) - 1)) =
      front ++ ((digits 58 width num).map symbolOf ++ rest) := by
  induction width generalizing num rest with
  | zero =>
    have zero : num = 0 := by omega
    rw [writeRemainders, if_pos zero]
    rfl
  | succ width inductionHypothesis =>
    have quotient : num / 58 < 58 ^ width := by
      rw [pow_succ] at fits
      exact Nat.div_lt_of_lt_mul (by omega)
    have buffer (symbol : UInt8) : front ++ (List.replicate width (symbolOf 0) ++ symbol :: rest) =
        (front ++ List.replicate width (symbolOf 0)) ++ symbol :: rest :=
      (List.append_assoc _ _ _).symm
    rw [List.replicate_succ', List.append_assoc, List.singleton_append, digits, List.map_append,
      List.map_singleton, List.append_assoc, List.singleton_append, ← inductionHypothesis quotient]
    by_cases zero : num = 0
    · subst zero
      rw [writeRemainders, if_pos rfl, writeRemainders, if_pos rfl]
    · have position : (front.length : Int) + (((width + 1 : Nat) : Int) - 1) =
          ((front ++ List.replicate width (symbolOf 0)).length : Nat) := by
        rw [List.length_append, List.length_replicate]
        omega
      rw [writeRemainders, if_neg zero, buffer, position, put_last, ← buffer]
      congr 1
      rw [List.length_append, List.length_replicate]
      omega

/-- A part of the array that has not been written: nothing but the symbol of zero. -/
def Blank (rest : List UInt8) : Prop := rest = List.replicate rest.length (symbolOf 0)

theorem Blank.drop {rest : List UInt8} (blank : Blank rest) (amount : Nat) :
    Blank (rest.drop amount) := by
  unfold Blank at *
  rw [List.length_drop, ← List.drop_replicate, ← blank]

theorem encodeBlock_eq {data : List UInt8} (positive : 1 ≤ data.length)
    (small : data.length ≤ 8) {rest : List UInt8} (blank : Blank rest)
    (space : encodedBlockSizes.getD data.length 0 ≤ rest.length) (written : List UInt8) :
    encodeBlock data (written ++ rest) written.length =
      .ok (written ++ symbols data ++ rest.drop (encodedBlockSizes.getD data.length 0)) := by
  have fits : bytesValue data < 58 ^ encodedBlockSizes.getD data.length 0 :=
    Nat.lt_of_lt_of_le (bytesValue_lt data) (room data.length small)
  have parts : rest = List.replicate (encodedBlockSizes.getD data.length 0) (symbolOf 0) ++
      rest.drop (encodedBlockSizes.getD data.length 0) := by
    conv_lhs => rw [← List.take_append_drop (encodedBlockSizes.getD data.length 0) rest]
    congr 1
    rw [blank, List.take_replicate, Nat.min_eq_left space]
  unfold encodeBlock
  rw [if_neg (by unfold fullEncodedBlockSize; omega), uint8BeTo64_eq positive small]
  conv_lhs => rw [parts]
  show Except.ok (writeRemainders _ _ _) = _
  rw [writeRemainders_eq fits, ← List.append_assoc]
  rfl

/-! ### Encoding -/

theorem subarray_eq (data : List UInt8) (start size : Nat) :
    subarray data start (start + size) = (data.drop start).take size := by
  rw [subarray, Nat.add_sub_cancel_left]

/-- The full blocks of bytes. -/
def fullBlocks (data : List UInt8) : List (List UInt8) :=
  Blocks.chunks fullBlockSize (data.length / fullBlockSize) data

/-- The bytes behind the full blocks. -/
def lastBlock (data : List UInt8) : List UInt8 :=
  data.drop (data.length / fullBlockSize * fullBlockSize)

theorem length_lastBlock (data : List UInt8) :
    (lastBlock data).length = data.length % fullBlockSize := by
  rw [lastBlock, List.length_drop]
  unfold fullBlockSize
  omega

theorem length_of_mem_fullBlocks {data block : List UInt8} (member : block ∈ fullBlocks data) :
    block.length = fullBlockSize :=
  Blocks.length_of_mem_chunks (Nat.div_mul_le_self _ _) member

theorem fullBlocks_append_lastBlock (data : List UInt8) :
    (fullBlocks data).flatten ++ lastBlock data = data :=
  Blocks.flatten_chunks_append _ _ data

/-- The symbols that bytes are written with. -/
def encodedBytes (data : List UInt8) : List UInt8 :=
  ((fullBlocks data).map symbols).flatten ++ symbols (lastBlock data)

theorem length_of_mem_symbols (data : List UInt8) :
    ∀ written ∈ (fullBlocks data).map symbols, written.length = fullEncodedBlockSize := by
  intro written member
  obtain ⟨block, present, rfl⟩ := List.mem_map.mp member
  rw [length_symbols, length_of_mem_fullBlocks present]
  rfl

theorem length_flatten_symbols (data : List UInt8) :
    ((fullBlocks data).map symbols).flatten.length =
      data.length / fullBlockSize * fullEncodedBlockSize := by
  rw [Blocks.length_flatten_of_sized (length_of_mem_symbols data), List.length_map, fullBlocks,
    Blocks.length_chunks]

theorem encode_loop (data : List UInt8) {buffer : List UInt8} (blank : Blank buffer)
    (space : data.length / fullBlockSize * fullEncodedBlockSize ≤ buffer.length) :
    (List.range (data.length / fullBlockSize)).foldlM (fun res i =>
        encodeBlock (subarray data (i * fullBlockSize) (i * fullBlockSize + fullBlockSize)) res
          (i * fullEncodedBlockSize)) buffer =
      (.ok (((fullBlocks data).map symbols).flatten ++
        buffer.drop (data.length / fullBlockSize * fullEncodedBlockSize)) :
        Except String (List UInt8)) := by
  have inside : data.length / fullBlockSize * fullBlockSize ≤ data.length :=
    Nat.div_mul_le_self _ _
  have full (index : Nat) (below : index < data.length / fullBlockSize) :
      (Blocks.chunk fullBlockSize data index).length = 8 :=
    Blocks.length_chunk (Nat.le_trans (Nat.mul_le_mul_right _ below) inside)
  rw [Blocks.foldlM_range_write fullEncodedBlockSize
    (fun index => .ok (symbols (Blocks.chunk fullBlockSize data index))) ?writes ?sized]
  case writes =>
    intro index below written start
    have size := full index below
    have table : encodedBlockSizes.getD (Blocks.chunk fullBlockSize data index).length 0 = 11 := by
      rw [size]
      rfl
    have enough : (index + 1) * fullEncodedBlockSize ≤ buffer.length :=
      Nat.le_trans (Nat.mul_le_mul_right _ below) space
    rw [Nat.succ_mul] at enough
    rw [subarray_eq, ← start]
    show encodeBlock (Blocks.chunk fullBlockSize data index) _ _ = _
    rw [encodeBlock_eq (by omega) (by omega) (blank.drop _)
      (by rw [table, List.length_drop, start]; exact Nat.le_sub_of_add_le' enough), table,
      List.drop_drop, Nat.succ_mul, start]
    rfl
  case sized =>
    intro index below block written
    cases written
    rw [length_symbols, full index below]
    rfl
  have all : (List.range (data.length / fullBlockSize)).mapM
        (fun index => (.ok (symbols (Blocks.chunk fullBlockSize data index)) :
          Except String (List UInt8))) = .ok ((fullBlocks data).map symbols) := by
    rw [fullBlocks, Blocks.chunks, List.map_map]
    exact List.mapM_pure
  rw [all]
  rfl

theorem encode_eq {hex : JsString} {data : List UInt8} (read : hextobin hex = .ok data) :
    encode hex = .ok (bintostr (encodedBytes data)) := by
  unfold encode
  rw [read]
  show (if data.length = 0 then _ else _) = _
  by_cases empty : data.length = 0
  · rw [if_pos empty, List.eq_nil_of_length_eq_zero empty]
    rfl
  · rw [if_neg empty]
    have last := length_lastBlock data
    have blank (size : Nat) : Blank (List.replicate size (alphabet.getD 0 0)) := by
      rw [Blank, List.length_replicate]
      rfl
    have loop := encode_loop data
      (blank (data.length / fullBlockSize * fullEncodedBlockSize +
        encodedBlockSizes.getD (data.length % fullBlockSize) 0))
      (by rw [List.length_replicate]; exact Nat.le_add_right _ _)
    rw [List.drop_replicate, Nat.add_sub_cancel_left] at loop
    simp only [loop]
    show (if data.length % fullBlockSize > 0 then _ else _) = _
    by_cases more : data.length % fullBlockSize > 0
    · have below : data.length % fullBlockSize < 8 := Nat.mod_lt _ (by decide)
      have block : subarray data (data.length / fullBlockSize * fullBlockSize)
          (data.length / fullBlockSize * fullBlockSize + data.length % fullBlockSize) =
          lastBlock data := by
        rw [subarray_eq, ← last]
        exact List.take_length
      rw [if_pos more, block, ← length_flatten_symbols]
      rw [encodeBlock_eq (by omega) (by omega) (blank _) (by rw [last, List.length_replicate]),
        last, List.drop_of_length_le (by rw [List.length_replicate]), List.append_nil]
      rfl
    · have none : lastBlock data = [] := List.eq_nil_of_length_eq_zero (by omega)
      have zero : data.length % fullBlockSize = 0 := by omega
      rw [if_neg more, zero, encodedBytes, none]
      rfl

/-! ### Decoding a block -/

/-- What `decode_block` puts into the array. -/
def blockBytes (data : List UInt8) : Except String (List UInt8) := do
  if data.length < 1 ∨ data.length > fullEncodedBlockSize then
    throw ("Invalid block length: " ++ toString data.length)
  let resSize := (encodedBlockSizes.idxOf? data.length).getD 0
  if resSize ≤ 0 then throw "Invalid block size"
  let (resNum, _) ← data.reverse.foldlM decodeSymbol (0, 1)
  if resSize < fullBlockSize ∧ 2 ^ (8 * resSize) ≤ resNum then throw "Overflow 2"
  uint64To8be resNum resSize

theorem decodeBlock_eq (data buf : List UInt8) (index : Nat) :
    decodeBlock data buf index = (blockBytes data).map fun bytes => setAt buf bytes index := by
  unfold decodeBlock blockBytes
  split
  · rfl
  · show (if _ then _ else _) = Except.map _ (if _ then _ else _)
    split
    · rfl
    · show (data.reverse.foldlM decodeSymbol (0, 1) >>= _) = Except.map _ (_ >>= _)
      cases data.reverse.foldlM decodeSymbol (0, 1) with
      | error failure => rfl
      | ok state =>
        show (if _ then _ else _) = Except.map _ (if _ then _ else _)
        split
        · rfl
        · rfl

theorem decodeSymbol_eq_ok_iff {state after : Nat × Nat} {symbol : UInt8} :
    decodeSymbol state symbol = .ok after ↔
      symbol ∈ alphabet ∧ state.2 * digitOf symbol + state.1 ≤ uint64Max ∧
        after = (state.2 * digitOf symbol + state.1, state.2 * 58) := by
  unfold decodeSymbol
  by_cases known : symbol ∈ alphabet
  · rw [idxOf?_alphabet known]
    show (if _ then _ else _) = _ ↔ _
    by_cases large : state.2 * digitOf symbol + state.1 > uint64Max
    · rw [if_pos large]
      constructor
      · intro done
        cases done
      · rintro ⟨_, small, _⟩
        exact absurd small (Nat.not_le.mpr large)
    · rw [if_neg large]
      constructor
      · intro done
        cases done
        exact ⟨known, Nat.not_lt.mp large, rfl⟩
      · rintro ⟨_, _, rfl⟩
        rfl
  · rw [List.idxOf?_eq_none_iff.mpr known]
    constructor
    · intro done
      cases done
    · rintro ⟨present, _⟩
      exact absurd present known

/-- The loop over the symbols from the last one on reads the number that they stand for. A
number only grows with the symbols before it, so that one comparison at the end is enough. -/
theorem decodeSymbols_eq_ok_iff {block : List UInt8} {after : Nat × Nat} :
    block.reverse.foldlM decodeSymbol (0, 1) = .ok after ↔
      (∀ symbol ∈ block, symbol ∈ alphabet) ∧ symbolsValue block ≤ uint64Max ∧
        after = (symbolsValue block, 58 ^ block.length) := by
  induction block generalizing after with
  | nil =>
    rw [List.reverse_nil, List.foldlM_nil]
    constructor
    · intro done
      cases done
      exact ⟨List.forall_mem_nil _, Nat.zero_le _, rfl⟩
    · rintro ⟨_, _, same⟩
      rw [same]
      rfl
  | cons symbol rest inductionHypothesis =>
    have total : symbolsValue (symbol :: rest) =
        58 ^ rest.length * digitOf symbol + symbolsValue rest := by
      rw [symbolsValue, List.map_cons, Positional.value_cons, List.length_map, Nat.mul_comm]
      rfl
    rw [List.reverse_cons, List.foldlM_append, Blocks.bind_eq_ok_iff, total, List.length_cons,
      pow_succ]
    constructor
    · rintro ⟨state, before, last⟩
      obtain ⟨known, _, rfl⟩ := inductionHypothesis.mp before
      simp only [List.foldlM_cons, List.foldlM_nil, bind_pure, decodeSymbol_eq_ok_iff] at last
      exact ⟨List.forall_mem_cons.mpr ⟨last.1, known⟩, last.2.1, last.2.2⟩
    · rintro ⟨known, small, same⟩
      obtain ⟨first, others⟩ := List.forall_mem_cons.mp known
      refine ⟨_, inductionHypothesis.mpr ⟨others, by omega, rfl⟩, ?_⟩
      simp only [List.foldlM_cons, List.foldlM_nil, bind_pure, decodeSymbol_eq_ok_iff]
      exact ⟨first, small, same⟩

/-- What a block must be like to be read as so many bytes. -/
structure Readable (block : List UInt8) (size : Nat) : Prop where
  positive : 1 ≤ size
  table : encodedBlockSizes.idxOf? block.length = some size
  known : ∀ symbol ∈ block, symbol ∈ alphabet
  small : symbolsValue block ≤ uint64Max
  fits : size < fullBlockSize → symbolsValue block < 2 ^ (8 * size)

theorem idxOf?_encodedBlockSizes {length size : Nat}
    (table : encodedBlockSizes.idxOf? length = some size) :
    size ≤ 8 ∧ encodedBlockSizes.getD size 0 = length := by
  obtain ⟨below, found, _⟩ := List.idxOf?_eq_some_iff.mp table
  refine ⟨Nat.lt_succ_iff.mp below, ?_⟩
  rw [List.getD_eq_getElem?_getD, List.getElem?_eq_getElem below, Option.getD_some, found]

theorem encodedBlockSizes_bounds (size : Nat) (positive : 1 ≤ size) (small : size ≤ 8) :
    1 ≤ encodedBlockSizes.getD size 0 ∧ encodedBlockSizes.getD size 0 ≤ 11 := by
  revert size
  decide

theorem blockBytes_eq_ok_iff {block bytes : List UInt8} :
    blockBytes block = .ok bytes ↔
      ∃ size, Readable block size ∧ bytes = bytesOf size (symbolsValue block) := by
  unfold blockBytes
  constructor
  · intro done
    split at done
    · cases done
    · replace done : (if _ then _ else _) = Except.ok bytes := done
      split at done
      · cases done
      · next positive =>
        obtain ⟨size, table⟩ : ∃ size, encodedBlockSizes.idxOf? block.length = some size := by
          cases table : encodedBlockSizes.idxOf? block.length with
          | none =>
            rw [table] at positive
            exact absurd (Nat.le_refl 0) positive
          | some size => exact ⟨size, rfl⟩
        rw [table, Option.getD_some] at done positive
        obtain ⟨state, read, done⟩ := Blocks.bind_eq_ok_iff.mp done
        obtain ⟨known, small, rfl⟩ := decodeSymbols_eq_ok_iff.mp read
        replace done : (if _ then _ else _) = Except.ok bytes := done
        split at done
        · cases done
        · next fits =>
          have atMost := (idxOf?_encodedBlockSizes table).1
          rw [uint64To8be_eq (by omega) atMost] at done
          cases done
          exact ⟨size, ⟨by omega, table, known, small, fun less => by
            by_contra large
            exact fits ⟨less, Nat.not_lt.mp large⟩⟩, rfl⟩
  · rintro ⟨size, readable, rfl⟩
    have bounds := idxOf?_encodedBlockSizes readable.table
    have lengths := encodedBlockSizes_bounds size readable.positive bounds.1
    rw [bounds.2] at lengths
    have positive := readable.positive
    have read := decodeSymbols_eq_ok_iff.mpr ⟨readable.known, readable.small, rfl⟩
    rw [if_neg (by unfold fullEncodedBlockSize; omega), readable.table, Option.getD_some]
    show (if _ then _ else _) = _
    rw [if_neg (by omega), read]
    show (if _ then _ else _) = _
    rw [if_neg fun ⟨less, large⟩ => Nat.not_lt.mpr large (readable.fits less),
      uint64To8be_eq readable.positive bounds.1]

theorem length_of_blockBytes {block bytes : List UInt8} {size : Nat}
    (table : encodedBlockSizes.idxOf? block.length = some size)
    (read : blockBytes block = .ok bytes) : bytes.length = size := by
  obtain ⟨other, readable, rfl⟩ := blockBytes_eq_ok_iff.mp read
  rw [length_bytesOf]
  exact Option.some.inj (readable.table.symm.trans table)

/-! ### Decoding -/

/-- The full blocks of symbols. -/
def encodedFullBlocks (enc : List UInt8) : List (List UInt8) :=
  Blocks.chunks fullEncodedBlockSize (enc.length / fullEncodedBlockSize) enc

/-- The symbols behind the full blocks. -/
def encodedLastBlock (enc : List UInt8) : List UInt8 :=
  enc.drop (enc.length / fullEncodedBlockSize * fullEncodedBlockSize)

theorem length_encodedLastBlock (enc : List UInt8) :
    (encodedLastBlock enc).length = enc.length % fullEncodedBlockSize := by
  rw [encodedLastBlock, List.length_drop]
  unfold fullEncodedBlockSize
  omega

theorem length_of_mem_encodedFullBlocks {enc block : List UInt8}
    (member : block ∈ encodedFullBlocks enc) : block.length = fullEncodedBlockSize :=
  Blocks.length_of_mem_chunks (Nat.div_mul_le_self _ _) member

theorem encodedFullBlocks_append (enc : List UInt8) :
    (encodedFullBlocks enc).flatten ++ encodedLastBlock enc = enc :=
  Blocks.flatten_chunks_append _ _ enc

/-- What the blocks of a string are read as. -/
structure Reads (enc : List UInt8) (full : List (List UInt8)) (last : List UInt8) : Prop where
  table : ∃ size, encodedBlockSizes.idxOf? (enc.length % fullEncodedBlockSize) = some size
  full : List.Forall₂ (fun block bytes => blockBytes block = .ok bytes)
    (encodedFullBlocks enc) full
  last : (encodedLastBlock enc = [] ∧ last = []) ∨
    (encodedLastBlock enc ≠ [] ∧ blockBytes (encodedLastBlock enc) = .ok last)

theorem setAt_append (written rest bytes : List UInt8) :
    setAt (written ++ rest) bytes written.length =
      written ++ bytes ++ rest.drop bytes.length := by
  rw [setAt, List.take_left, List.drop_length_add_append]

theorem decodeBlock_append {block : List UInt8} {size : Nat}
    (table : encodedBlockSizes.idxOf? block.length = some size) (written rest : List UInt8) :
    decodeBlock block (written ++ rest) written.length =
      (blockBytes block).map fun bytes => written ++ bytes ++ rest.drop size := by
  rw [decodeBlock_eq]
  cases read : blockBytes block with
  | error failure => rfl
  | ok bytes =>
    show Except.ok (setAt _ _ _) = Except.ok _
    rw [setAt_append, length_of_blockBytes table read]

theorem decode_loop (enc buffer : List UInt8) :
    (List.range (enc.length / fullEncodedBlockSize)).foldlM (fun data i =>
        decodeBlock (subarray enc (i * fullEncodedBlockSize)
          (i * fullEncodedBlockSize + fullEncodedBlockSize)) data (i * fullBlockSize)) buffer =
      ((encodedFullBlocks enc).mapM blockBytes).map fun full =>
        full.flatten ++ buffer.drop (enc.length / fullEncodedBlockSize * fullBlockSize) := by
  have table (index : Nat) (below : index < enc.length / fullEncodedBlockSize) :
      encodedBlockSizes.idxOf? (Blocks.chunk fullEncodedBlockSize enc index).length = some 8 := by
    rw [Blocks.length_chunk
      (Nat.le_trans (Nat.mul_le_mul_right _ below) (Nat.div_mul_le_self _ _))]
    decide
  rw [Blocks.foldlM_range_write fullBlockSize
    (fun index => blockBytes (Blocks.chunk fullEncodedBlockSize enc index)) ?writes ?sized,
    Blocks.mapM_range_chunk]
  · rfl
  case writes =>
    intro index below written start
    rw [subarray_eq, Nat.succ_mul, ← List.drop_drop, ← start]
    exact decodeBlock_append (table index below) written _
  case sized =>
    intro index below bytes read
    exact length_of_blockBytes (table index below) read

theorem length_of_mem_full {enc : List UInt8} {full : List (List UInt8)}
    (read : List.Forall₂ (fun block bytes => blockBytes block = .ok bytes)
      (encodedFullBlocks enc) full) : ∀ bytes ∈ full, bytes.length = fullBlockSize := by
  intro bytes member
  obtain ⟨index, below, rfl⟩ := List.getElem_of_mem member
  have inside : index < (encodedFullBlocks enc).length := read.length_eq ▸ below
  have table : encodedBlockSizes.idxOf? ((encodedFullBlocks enc)[index]).length = some 8 := by
    rw [length_of_mem_encodedFullBlocks (List.getElem_mem inside)]
    decide
  exact length_of_blockBytes table (List.forall₂_iff_get.mp read |>.2 index inside below)

theorem length_flatten_full {enc : List UInt8} {full : List (List UInt8)}
    (read : List.Forall₂ (fun block bytes => blockBytes block = .ok bytes)
      (encodedFullBlocks enc) full) :
    full.flatten.length = enc.length / fullEncodedBlockSize * fullBlockSize := by
  rw [Blocks.length_flatten_of_sized (length_of_mem_full read), ← read.length_eq,
    encodedFullBlocks, Blocks.length_chunks]

/-- The rest of the symbols is read behind the full blocks. -/
theorem decodeBlock_last {enc : List UInt8} {full : List (List UInt8)} {size : Nat}
    (table : encodedBlockSizes.idxOf? (enc.length % fullEncodedBlockSize) = some size)
    (read : List.Forall₂ (fun block bytes => blockBytes block = .ok bytes)
      (encodedFullBlocks enc) full) :
    decodeBlock (subarray enc (enc.length / fullEncodedBlockSize * fullEncodedBlockSize)
        (enc.length / fullEncodedBlockSize * fullEncodedBlockSize +
          enc.length % fullEncodedBlockSize))
      (full.flatten ++ List.replicate size 0)
      (enc.length / fullEncodedBlockSize * fullBlockSize) =
      (blockBytes (encodedLastBlock enc)).map fun bytes => full.flatten ++ bytes := by
  have last := length_encodedLastBlock enc
  have block : subarray enc (enc.length / fullEncodedBlockSize * fullEncodedBlockSize)
      (enc.length / fullEncodedBlockSize * fullEncodedBlockSize +
        enc.length % fullEncodedBlockSize) = encodedLastBlock enc := by
    rw [subarray_eq, ← last]
    exact List.take_length
  rw [← last] at table
  rw [block, ← length_flatten_full read, decodeBlock_append table,
    List.drop_of_length_le (by rw [List.length_replicate])]
  simp only [List.append_nil]

/-- A string is decoded just when its blocks are read, and gives the bytes that they are
read as. -/
theorem decode_eq_ok_iff {str hex : JsString} :
    decode str = .ok hex ↔
      ∃ full last, Reads (strtobin str) full last ∧ hex = bintohex (full.flatten ++ last) := by
  unfold decode
  by_cases empty : (strtobin str).length = 0
  · rw [if_pos empty, List.eq_nil_of_length_eq_zero empty]
    constructor
    · intro done
      cases done
      exact ⟨[], [], ⟨⟨0, rfl⟩, .nil, .inl ⟨rfl, rfl⟩⟩, rfl⟩
    · rintro ⟨full, last, ⟨_, fullRead, lastRead⟩, rfl⟩
      cases fullRead
      rcases lastRead with ⟨_, rfl⟩ | ⟨some, _⟩
      · rfl
      · exact absurd rfl some
  · rw [if_neg empty]
    generalize strtobin str = enc
    show (match encodedBlockSizes.idxOf? (enc.length % fullEncodedBlockSize) with
      | none => _ | some lastBlockDecodedSize => _) = _ ↔ _
    cases table : encodedBlockSizes.idxOf? (enc.length % fullEncodedBlockSize) with
    | none =>
      constructor
      · intro done
        cases done
      · rintro ⟨_, _, ⟨⟨_, found⟩, _, _⟩, _⟩
        rw [table] at found
        cases found
    | some size =>
      have loop := decode_loop enc
        (List.replicate (enc.length / fullEncodedBlockSize * fullBlockSize + size) 0)
      rw [List.drop_replicate, Nat.add_sub_cancel_left] at loop
      simp only [loop]
      have last := length_encodedLastBlock enc
      rw [Blocks.bind_eq_ok_iff]
      constructor
      · rintro ⟨data, fullDone, done⟩
        cases fullRead : (encodedFullBlocks enc).mapM blockBytes with
        | error failure =>
          rw [fullRead] at fullDone
          cases fullDone
        | ok full =>
          rw [fullRead] at fullDone
          cases fullDone
          have reads := Blocks.mapM_eq_ok_iff.mp fullRead
          by_cases more : enc.length % fullEncodedBlockSize > 0
          · rw [if_pos more, decodeBlock_last table reads] at done
            cases lastRead : blockBytes (encodedLastBlock enc) with
            | error failure =>
              rw [lastRead] at done
              cases done
            | ok bytes =>
              rw [lastRead] at done
              cases done
              exact ⟨full, bytes, ⟨⟨size, table⟩, reads, .inr ⟨List.ne_nil_of_length_pos
                (by omega), lastRead⟩⟩, rfl⟩
          · have none : encodedLastBlock enc = [] := List.eq_nil_of_length_eq_zero (by omega)
            have zero : enc.length % fullEncodedBlockSize = 0 := by omega
            rw [zero] at table
            cases table
            rw [if_neg more] at done
            cases done
            exact ⟨full, [], ⟨⟨0, by rw [zero]; rfl⟩, reads, .inl ⟨none, rfl⟩⟩, rfl⟩
      · rintro ⟨full, bytes, ⟨_, reads, lastRead⟩, rfl⟩
        rw [Blocks.mapM_eq_ok_iff.mpr reads]
        refine ⟨_, rfl, ?_⟩
        rcases lastRead with ⟨none, rfl⟩ | ⟨some, lastRead⟩
        · have zero : enc.length % fullEncodedBlockSize = 0 := by
            rw [← last, none]
            rfl
          rw [zero] at table
          cases table
          rw [if_neg (by omega)]
          rfl
        · have more : enc.length % fullEncodedBlockSize > 0 := by
            rw [← last]
            exact List.length_pos_of_ne_nil some
          rw [if_pos more, decodeBlock_last table reads, lastRead]
          rfl

/-! ### What is encoded is decoded -/

theorem strtobin_bintostr (bin : List UInt8) : strtobin (bintostr bin) = bin := by
  rw [strtobin, bintostr, List.map_map]
  exact (List.map_congr_left fun byte _ => UInt8.toUInt8_toUInt16 byte).trans (List.map_id bin)

theorem bytesValue_lt_symbols {block : List UInt8} (small : block.length ≤ 8) :
    bytesValue block < 58 ^ encodedBlockSizes.getD block.length 0 :=
  Nat.lt_of_lt_of_le (bytesValue_lt block) (room block.length small)

theorem symbolsValue_symbols {block : List UInt8} (small : block.length ≤ 8) :
    symbolsValue (symbols block) = bytesValue block := by
  rw [symbolsValue, symbols, map_digitOf_symbolOf fun _ => Positional.digit_lt (by decide),
    Positional.value_digits_of_lt (bytesValue_lt_symbols small)]

theorem encodedBlockSizes_idxOf? (size : Nat) (small : size ≤ 8) :
    encodedBlockSizes.idxOf? (encodedBlockSizes.getD size 0) = some size := by
  revert size
  decide

theorem readable_symbols {block : List UInt8} (positive : 1 ≤ block.length)
    (small : block.length ≤ 8) : Readable (symbols block) block.length where
  positive := positive
  table := by rw [length_symbols, encodedBlockSizes_idxOf? _ small]
  known := by
    intro symbol member
    obtain ⟨digit, present, rfl⟩ := List.mem_map.mp member
    exact symbolOf_mem (Positional.digit_lt (by decide) present)
  small := by
    rw [symbolsValue_symbols small]
    exact Nat.le_trans (Nat.le_of_lt (bytesValue_lt block))
      (Nat.pow_le_pow_right (n := 2 ^ 8) (by decide) small)
  fits := by
    intro _
    rw [symbolsValue_symbols small, pow_mul]
    exact bytesValue_lt block

theorem blockBytes_symbols {block : List UInt8} (positive : 1 ≤ block.length)
    (small : block.length ≤ 8) : blockBytes (symbols block) = .ok block := by
  refine blockBytes_eq_ok_iff.mpr ⟨block.length, readable_symbols positive small, ?_⟩
  rw [symbolsValue_symbols small, bytesOf_bytesValue]

theorem length_symbols_lastBlock (data : List UInt8) :
    (symbols (lastBlock data)).length = encodedBlockSizes.getD (data.length % fullBlockSize) 0 := by
  rw [length_symbols, length_lastBlock]

/-- Less than eight bytes make less than eleven symbols. -/
theorem encodedBlockSizes_lt (size : Nat) (small : size < 8) :
    encodedBlockSizes.getD size 0 < 11 := by
  revert size
  decide

theorem encodedBytes_blocks (data : List UInt8) :
    encodedFullBlocks (encodedBytes data) = (fullBlocks data).map symbols ∧
      encodedLastBlock (encodedBytes data) = symbols (lastBlock data) ∧
      (encodedBytes data).length % fullEncodedBlockSize =
        encodedBlockSizes.getD (data.length % fullBlockSize) 0 := by
  have front := length_flatten_symbols data
  have back := length_symbols_lastBlock data
  have short : encodedBlockSizes.getD (data.length % fullBlockSize) 0 < fullEncodedBlockSize :=
    encodedBlockSizes_lt _ (Nat.mod_lt _ (by decide))
  have length : (encodedBytes data).length =
      data.length / fullBlockSize * fullEncodedBlockSize +
        encodedBlockSizes.getD (data.length % fullBlockSize) 0 := by
    rw [encodedBytes, List.length_append, front, back]
  have positive : 0 < fullEncodedBlockSize := by decide
  have count : (encodedBytes data).length / fullEncodedBlockSize = data.length / fullBlockSize := by
    rw [length, Nat.add_comm, Nat.add_mul_div_right _ _ positive, Nat.div_eq_of_lt short,
      Nat.zero_add]
  have blocks : ((fullBlocks data).map symbols).length = data.length / fullBlockSize := by
    rw [List.length_map, fullBlocks, Blocks.length_chunks]
  refine ⟨?_, ?_, ?_⟩
  · rw [encodedFullBlocks, count, encodedBytes, ← blocks]
    exact Blocks.chunks_flatten_append (length_of_mem_symbols data) _
  · rw [encodedLastBlock, count, encodedBytes, ← front, List.drop_left]
  · rw [length, Nat.add_comm, Nat.add_mul_mod_self_right, Nat.mod_eq_of_lt short]

theorem reads_encodedBytes (data : List UInt8) :
    Reads (encodedBytes data) (fullBlocks data) (lastBlock data) := by
  obtain ⟨full, last, rest⟩ := encodedBytes_blocks data
  have below : data.length % fullBlockSize < 8 := Nat.mod_lt _ (by decide)
  refine ⟨⟨data.length % fullBlockSize, ?_⟩, ?_, ?_⟩
  · rw [rest, encodedBlockSizes_idxOf? _ (by omega)]
  · rw [full, List.forall₂_map_left_iff]
    refine List.forall₂_same.mpr fun block member => ?_
    have size := length_of_mem_fullBlocks member
    unfold fullBlockSize at size
    exact blockBytes_symbols (by omega) (by omega)
  · rw [last]
    have size := length_lastBlock data
    by_cases empty : lastBlock data = []
    · rw [empty]
      exact .inl ⟨rfl, rfl⟩
    · have positive := List.length_pos_of_ne_nil empty
      refine .inr ⟨?_, blockBytes_symbols (by omega) (by omega)⟩
      refine List.ne_nil_of_length_pos ?_
      rw [length_symbols]
      exact (encodedBlockSizes_bounds _ (by omega) (by omega)).1

theorem decode_encodedBytes (data : List UInt8) :
    decode (bintostr (encodedBytes data)) = .ok (bintohex data) :=
  decode_eq_ok_iff.mpr ⟨fullBlocks data, lastBlock data,
    by rw [strtobin_bintostr]; exact reads_encodedBytes data,
    by rw [fullBlocks_append_lastBlock]⟩

theorem decode_of_encode {hex str : JsString} (digits : IsHex hex) (even : hex.length % 2 = 0)
    (encoded : encode hex = .ok str) : decode str = .ok (lowerCase hex) := by
  have read := hextobin_eq even
  rw [encode_eq read] at encoded
  cases encoded
  rw [decode_encodedBytes, bintohex_of_hextobin digits read]

/-- Decoding what digits were encoded to gives the digits in lower case. -/
theorem decode_encode (hex : JsString) (digits : IsHex hex) (even : hex.length % 2 = 0) :
    (encode hex >>= decode) = .ok (lowerCase hex) := by
  have encoded := encode_eq (hextobin_eq even)
  rw [encoded]
  exact decode_of_encode digits even encoded

theorem decode_encode_mixed :
    (encode (JsString.ofString "00aF09") >>= decode) = .ok (JsString.ofString "00af09") :=
  (decode_encode (JsString.ofString "00aF09") (by decide +kernel) (by decide +kernel)).trans
    (by decide +kernel)

/-! ### Which strings are what encoding gives -/

/-- The number of a block is below what its bytes have room for. -/
def Fits (block : List UInt8) : Prop :=
  ∀ size, encodedBlockSizes.idxOf? block.length = some size →
    symbolsValue block < 2 ^ (8 * size)

/-- Encoding what a string was decoded to gives the string, and none of its blocks stands for a
number that its bytes have no room for. -/
structure Canonical (str hex : JsString) : Prop where
  encoded : encode hex = .ok str
  full : ∀ block ∈ encodedFullBlocks (strtobin str), Fits block
  last : Fits (encodedLastBlock (strtobin str))

/-- The symbols of the number that `decode_block` compares with, which a full block has no room
for. -/
def overflowBlock : List UInt8 := strtobin (JsString.ofString "jpXCZedGfVR")

/-- No character is cut to a byte, and no full block has the one number that is accepted and
does not fit. -/
structure Proper (str : JsString) : Prop where
  units : ∀ unit ∈ str, unit.toNat < 256
  blocks : overflowBlock ∉ encodedFullBlocks (strtobin str)

/-- A block that fits is what its bytes are written with, and no other block is. -/
theorem symbols_eq_iff {block bytes : List UInt8} (read : blockBytes block = .ok bytes) :
    symbols bytes = block ↔ Fits block := by
  obtain ⟨size, readable, rfl⟩ := blockBytes_eq_ok_iff.mp read
  have bounds := idxOf?_encodedBlockSizes readable.table
  have small : (bytesOf size (symbolsValue block)).length ≤ 8 := by
    rw [length_bytesOf]
    exact bounds.1
  constructor
  · intro same other table
    rw [readable.table] at table
    cases table
    rw [← same, symbolsValue_symbols small, pow_mul]
    have bound := bytesValue_lt (bytesOf size (symbolsValue block))
    rwa [length_bytesOf] at bound
  · intro fits
    have below := fits size readable.table
    rw [pow_mul] at below
    have written := Positional.digits_value (map_digitOf_lt readable.known)
    rw [List.length_map] at written
    rw [symbols, length_bytesOf, bounds.2, bytesValue_bytesOf, Nat.mod_eq_of_lt below, symbolsValue,
      written, map_symbolOf_digitOf readable.known]

theorem symbolsValue_overflowBlock : symbolsValue overflowBlock = uint64Max := by decide +kernel

theorem overflowBlock_known : ∀ symbol ∈ overflowBlock, symbol ∈ alphabet := by decide +kernel

/-- A full block that is read fits if it is not the one whose number is too large by one. -/
theorem fits_iff_ne_overflowBlock {block bytes : List UInt8}
    (full : block.length = fullEncodedBlockSize) (read : blockBytes block = .ok bytes) :
    Fits block ↔ block ≠ overflowBlock := by
  obtain ⟨size, readable, _⟩ := blockBytes_eq_ok_iff.mp read
  have table : encodedBlockSizes.idxOf? block.length = some 8 := by
    rw [full]
    decide
  have bound := readable.small
  constructor
  · rintro fits rfl
    have below := fits 8 table
    rw [symbolsValue_overflowBlock] at below
    exact absurd below (Nat.lt_irrefl _)
  · intro other size found
    rw [table] at found
    cases found
    refine Nat.lt_of_le_of_ne bound fun same => other ?_
    have digits : block.map digitOf = overflowBlock.map digitOf := by
      refine Positional.eq_of_value_eq (map_digitOf_lt readable.known)
        (map_digitOf_lt overflowBlock_known) ?_ (same.trans symbolsValue_overflowBlock.symm)
      rw [List.length_map, List.length_map, full]
      decide +kernel
    rw [← map_symbolOf_digitOf readable.known, digits, map_symbolOf_digitOf overflowBlock_known]

theorem bintostr_strtobin_iff (str : JsString) :
    bintostr (strtobin str) = str ↔ ∀ unit ∈ str, unit.toNat < 256 := by
  rw [bintostr, strtobin, List.map_map]
  have cut (unit : UInt16) : unit.toUInt8.toUInt16 = unit ↔ unit.toNat < 256 := by
    rw [← UInt16.toNat_inj, UInt8.toNat_toUInt16, UInt16.toNat_toUInt8]
    omega
  have all : str.map (UInt8.toUInt16 ∘ UInt16.toUInt8) = str.map id ↔
      ∀ unit ∈ str, unit.toUInt8.toUInt16 = unit := List.map_inj_left
  rw [List.map_id] at all
  exact all.trans (forall₂_congr fun unit _ => cut unit)

/-- What is read at the end of a string is less than a full block. -/
theorem length_last_lt {enc : List UInt8} {full : List (List UInt8)} {last : List UInt8}
    (reads : Reads enc full last) : last.length < fullBlockSize := by
  rcases reads.last with ⟨_, rfl⟩ | ⟨_, read⟩
  · decide
  · obtain ⟨size, readable, rfl⟩ := blockBytes_eq_ok_iff.mp read
    have bounds := idxOf?_encodedBlockSizes readable.table
    have short : (encodedLastBlock enc).length < 11 := by
      rw [length_encodedLastBlock]
      exact Nat.mod_lt _ (by decide)
    rw [length_bytesOf]
    by_contra large
    have eight : size = 8 := Nat.le_antisymm bounds.1 (Nat.not_lt.mp large)
    rw [← bounds.2, eight] at short
    exact absurd short (by decide)

/-- The blocks of the bytes are what the blocks of symbols were read as. -/
theorem blocks_of_reads {enc : List UInt8} {full : List (List UInt8)} {last : List UInt8}
    (reads : Reads enc full last) :
    fullBlocks (full.flatten ++ last) = full ∧ lastBlock (full.flatten ++ last) = last := by
  have sized := length_of_mem_full reads.full
  have front := Blocks.length_flatten_of_sized sized
  have count : (full.flatten ++ last).length / fullBlockSize = full.length := by
    rw [List.length_append, front, Nat.add_comm, Nat.add_mul_div_right _ _ (by decide),
      Nat.div_eq_of_lt (length_last_lt reads), Nat.zero_add]
  rw [fullBlocks, lastBlock, count]
  exact ⟨Blocks.chunks_flatten_append sized last, by rw [← front, List.drop_left]⟩

/-- Encoding what was read gives the symbols again just when all of them fit. -/
theorem encodedBytes_eq_iff {enc : List UInt8} {full : List (List UInt8)} {last : List UInt8}
    (reads : Reads enc full last) :
    encodedBytes (full.flatten ++ last) = enc ↔
      (∀ block ∈ encodedFullBlocks enc, Fits block) ∧ Fits (encodedLastBlock enc) := by
  obtain ⟨fullSame, lastSame⟩ := blocks_of_reads reads
  have lastIff : symbols last = encodedLastBlock enc ↔ Fits (encodedLastBlock enc) := by
    rcases reads.last with ⟨none, rfl⟩ | ⟨_, read⟩
    · rw [none]
      exact ⟨fun _ size table => by cases table; decide, fun _ => rfl⟩
    · exact symbols_eq_iff read
  have fullIff : full.map symbols = encodedFullBlocks enc ↔
      ∀ block ∈ encodedFullBlocks enc, Fits block := by
    have read := reads.full
    generalize encodedFullBlocks enc = blocks at read
    clear reads fullSame lastSame lastIff
    induction read with
    | nil => exact ⟨fun _ => List.forall_mem_nil _, fun _ => rfl⟩
    | cons one _ inductionHypothesis =>
      rw [List.map_cons, List.cons_eq_cons, List.forall_mem_cons]
      exact and_congr (symbols_eq_iff one) inductionHypothesis
  rw [← fullIff, ← lastIff, encodedBytes, fullSame, lastSame]
  constructor
  · intro same
    rw [← encodedFullBlocks_append enc] at same
    refine Blocks.eq_of_flatten_eq ?_ (fun _ => length_of_mem_encodedFullBlocks) ?_ same
    · have sized := length_of_mem_symbols (full.flatten ++ last)
      rwa [fullSame] at sized
    · rw [List.length_map, reads.full.length_eq]
  · rintro ⟨fullAgain, lastAgain⟩
    rw [fullAgain, lastAgain, encodedFullBlocks_append]

theorem encode_eq_ok_iff {str : JsString} {full : List (List UInt8)} {last : List UInt8}
    (reads : Reads (strtobin str) full last) :
    encode (bintohex (full.flatten ++ last)) = .ok str ↔
      (∀ unit ∈ str, unit.toNat < 256) ∧
        (∀ block ∈ encodedFullBlocks (strtobin str), Fits block) ∧
        Fits (encodedLastBlock (strtobin str)) := by
  rw [encode_eq (hextobin_bintohex _), ← encodedBytes_eq_iff reads, ← bintostr_strtobin_iff,
    Except.ok.injEq]
  constructor
  · intro same
    have bytes : encodedBytes (full.flatten ++ last) = strtobin str := by
      rw [← same, strtobin_bintostr]
    exact ⟨by rw [← bytes, same], bytes⟩
  · rintro ⟨units, bytes⟩
    rw [bytes, units]

/-- How many symbols so many bytes are written with. -/
def encodedLength (count : Nat) : Nat :=
  count / fullBlockSize * fullEncodedBlockSize + encodedBlockSizes.getD (count % fullBlockSize) 0

/-- The number of bytes that a string is decoded to determines its length. -/
theorem length_of_decode {str hex : JsString} (accepted : decode str = .ok hex) :
    hex.length % 2 = 0 ∧ str.length = encodedLength (hex.length / 2) := by
  obtain ⟨full, last, reads, rfl⟩ := decode_eq_ok_iff.mp accepted
  have front := Blocks.length_flatten_of_sized (length_of_mem_full reads.full)
  have short := length_last_lt reads
  have count : full.length = str.length / fullEncodedBlockSize := by
    rw [← reads.full.length_eq, encodedFullBlocks, Blocks.length_chunks, strtobin, List.length_map]
  have back : encodedBlockSizes.getD last.length 0 = str.length % fullEncodedBlockSize := by
    have length := length_encodedLastBlock (strtobin str)
    rw [strtobin, List.length_map] at length
    rcases reads.last with ⟨none, rfl⟩ | ⟨_, read⟩
    · rw [← length, ← strtobin, none]
      rfl
    · obtain ⟨size, readable, rfl⟩ := blockBytes_eq_ok_iff.mp read
      rw [length_bytesOf, (idxOf?_encodedBlockSizes readable.table).2]
      exact length
  unfold encodedLength
  rw [length_bintohex, Nat.mul_div_cancel _ (by decide), List.length_append, front, count,
    Nat.add_comm _ last.length, Nat.add_mul_div_right _ _ (by decide), Nat.div_eq_of_lt short,
    Nat.zero_add, Nat.add_mul_mod_self_right, Nat.mod_eq_of_lt short, back]
  exact ⟨Nat.mul_mod_left _ _, (Nat.div_add_mod' _ _).symm⟩

/-- What is behind the full blocks always fits, since it is compared with its own bound. -/
theorem fits_last {enc : List UInt8} {full : List (List UInt8)} {last : List UInt8}
    (reads : Reads enc full last) : Fits (encodedLastBlock enc) := by
  rcases reads.last with ⟨none, _⟩ | ⟨_, read⟩
  · rw [none]
    intro size table
    cases table
    decide
  · obtain ⟨size, readable, rfl⟩ := blockBytes_eq_ok_iff.mp read
    have short := length_last_lt reads
    rw [length_bytesOf] at short
    intro other table
    rw [readable.table] at table
    cases table
    exact readable.fits short

theorem fits_full_iff {enc : List UInt8} {full : List (List UInt8)} {last : List UInt8}
    (reads : Reads enc full last) :
    (∀ block ∈ encodedFullBlocks enc, Fits block) ↔ overflowBlock ∉ encodedFullBlocks enc := by
  have each (block : List UInt8) (member : block ∈ encodedFullBlocks enc) :
      Fits block ↔ block ≠ overflowBlock := by
    obtain ⟨index, below, rfl⟩ := List.getElem_of_mem member
    have inside : index < full.length := reads.full.length_eq ▸ below
    exact fits_iff_ne_overflowBlock (length_of_mem_encodedFullBlocks member)
      (List.forall₂_iff_get.mp reads.full |>.2 index below inside)
  constructor
  · exact fun fits member => (each _ member).mp (fits _ member) rfl
  · intro absent block member
    refine (each block member).mpr fun same => absent ?_
    rwa [← same]

theorem encode_iff_proper {str hex : JsString} (accepted : decode str = .ok hex) :
    encode hex = .ok str ↔ Proper str := by
  obtain ⟨full, last, reads, rfl⟩ := decode_eq_ok_iff.mp accepted
  rw [encode_eq_ok_iff reads, fits_full_iff reads]
  constructor
  · exact fun ⟨units, blocks, _⟩ => ⟨units, blocks⟩
  · exact fun proper => ⟨proper.units, proper.blocks, fits_last reads⟩

/-- A string that is decoded is what encoding gives just when none of its characters is cut to
a byte and none of its full blocks has the number that is too large by one. Two such strings
are decoded to the same only if they are the same. -/
theorem canonical_iff {str hex : JsString} (accepted : decode str = .ok hex) :
    (Canonical str hex ↔ Proper str) ∧
      ∀ other, decode other = .ok hex → Proper str → Proper other → other = str := by
  constructor
  · constructor
    · exact fun canonical => (encode_iff_proper accepted).mp canonical.encoded
    · intro proper
      have encoded := (encode_iff_proper accepted).mpr proper
      obtain ⟨full, last, reads, rfl⟩ := decode_eq_ok_iff.mp accepted
      exact ⟨encoded, (fits_full_iff reads).mpr proper.blocks, fits_last reads⟩
  · intro other otherAccepted proper otherProper
    have same := ((encode_iff_proper otherAccepted).mpr otherProper).symm.trans
      ((encode_iff_proper accepted).mpr proper)
    exact Except.ok.inj same

theorem canonical_iff_one :
    (Canonical (JsString.ofString "12") (JsString.ofString "01") ↔
        Proper (JsString.ofString "12")) ∧
      ∀ other, decode other = .ok (JsString.ofString "01") → Proper (JsString.ofString "12") →
        Proper other → other = JsString.ofString "12" :=
  canonical_iff (by decide +kernel)

/-- The number 2 ^ 64 is accepted in a full block and read as eight zeros. -/
theorem overflow_read :
    decode (JsString.ofString "jpXCZedGfVR") = .ok (JsString.ofString "0000000000000000") ∧
      encode (JsString.ofString "0000000000000000") = .ok (JsString.ofString "11111111111") := by
  decide +kernel

theorem not_canonical : ¬ ∀ str hex, decode str = .ok hex → encode hex = .ok str := by
  intro canonical
  have same := canonical _ _ overflow_read.1
  rw [overflow_read.2] at same
  exact absurd same (by decide +kernel)

end LightWallet.Frontend.CnBase58
