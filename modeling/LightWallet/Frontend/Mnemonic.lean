/-
This file models how the wallet's scripts write a seed in words and read it back.
Eight hexadecimal digits are a number of 32 bits, which becomes three words of a
list; a checksum word, one of the others, follows at the end.

Seeds are read as they were written. The words stand for three digits in the base
of the list's length, so that some groups of words stand for numbers of more than
32 bits; these are accepted, and read as what is left of them in eight digits.
-/

import Mathlib.Data.List.GetD
import LightWallet.Frontend.Strings

namespace LightWallet.Frontend

/-! ### The checksum of strings -/

namespace Crc32

/-- `crc32.table`. -/
def table : List UInt32 :=
  [0, 1996959894, 3993919788, 2567524794, 124634137, 1886057615, 3915621685, 2657392035, 249268274,
    2044508324, 3772115230, 2547177864, 162941995, 2125561021, 3887607047, 2428444049, 498536548,
    1789927666, 4089016648, 2227061214, 450548861, 1843258603, 4107580753, 2211677639, 325883990,
    1684777152, 4251122042, 2321926636, 335633487, 1661365465, 4195302755, 2366115317, 997073096,
    1281953886, 3579855332, 2724688242, 1006888145, 1258607687, 3524101629, 2768942443, 901097722,
    1119000684, 3686517206, 2898065728, 853044451, 1172266101, 3705015759, 2882616665, 651767980,
    1373503546, 3369554304, 3218104598, 565507253, 1454621731, 3485111705, 3099436303, 671266974,
    1594198024, 3322730930, 2970347812, 795835527, 1483230225, 3244367275, 3060149565, 1994146192,
    31158534, 2563907772, 4023717930, 1907459465, 112637215, 2680153253, 3904427059, 2013776290,
    251722036, 2517215374, 3775830040, 2137656763, 141376813, 2439277719, 3865271297, 1802195444,
    476864866, 2238001368, 4066508878, 1812370925, 453092731, 2181625025, 4111451223, 1706088902,
    314042704, 2344532202, 4240017532, 1658658271, 366619977, 2362670323, 4224994405, 1303535960,
    984961486, 2747007092, 3569037538, 1256170817, 1037604311, 2765210733, 3554079995, 1131014506,
    879679996, 2909243462, 3663771856, 1141124467, 855842277, 2852801631, 3708648649, 1342533948,
    654459306, 3188396048, 3373015174, 1466479909, 544179635, 3110523913, 3462522015, 1591671054,
    702138776, 2966460450, 3352799412, 1504918807, 783551873, 3082640443, 3233442989, 3988292384,
    2596254646, 62317068, 1957810842, 3939845945, 2647816111, 81470997, 1943803523, 3814918930,
    2489596804, 225274430, 2053790376, 3826175755, 2466906013, 167816743, 2097651377, 4027552580,
    2265490386, 503444072, 1762050814, 4150417245, 2154129355, 426522225, 1852507879, 4275313526,
    2312317920, 282753626, 1742555852, 4189708143, 2394877945, 397917763, 1622183637, 3604390888,
    2714866558, 953729732, 1340076626, 3518719985, 2797360999, 1068828381, 1219638859, 3624741850,
    2936675148, 906185462, 1090812512, 3747672003, 2825379669, 829329135, 1181335161, 3412177804,
    3160834842, 628085408, 1382605366, 3423369109, 3138078467, 570562233, 1426400815, 3317316542,
    2998733608, 733239954, 1555261956, 3268935591, 3050360625, 752459403, 1541320221, 2607071920,
    3965973030, 1969922972, 40735498, 2617837225, 3943577151, 1913087877, 83908371, 2512341634,
    3803740692, 2075208622, 213261112, 2463272603, 3855990285, 2094854071, 198958881, 2262029012,
    4057260610, 1759359992, 534414190, 2176718541, 4139329115, 1873836001, 414664567, 2282248934,
    4279200368, 1711684554, 285281116, 2405801727, 4167216745, 1634467795, 376229701, 2685067896,
    3608007406, 1308918612, 956543938, 2808555105, 3495958263, 1231636301, 1047427035, 2932959818,
    3654703836, 1088359270, 936918000, 2847714899, 3736837829, 1202900863, 817233897, 3183342108,
    3401237130, 1404277552, 615818150, 3134207493, 3453421203, 1423857449, 601450431, 3009837614,
    3294710456, 1567103746, 711928724, 3020668471, 3272380065, 1510334235, 755167117]

/-- `unescape(encodeURIComponent(string))`: the bytes of the string in UTF-8. Halves of pairs of
code units that stand alone are refused. -/
def utf8Encode : JsString → Except String (List UInt8)
  | [] => pure []
  | unit :: rest =>
    let code := unit.toNat
    if code < 0x80 then do
      pure (UInt8.ofNat code :: (← utf8Encode rest))
    else if code < 0x800 then do
      pure (UInt8.ofNat (0xC0 + code / 64) :: UInt8.ofNat (0x80 + code % 64) ::
        (← utf8Encode rest))
    else if code < 0xD800 ∨ 0xE000 ≤ code then do
      pure (UInt8.ofNat (0xE0 + code / 4096) :: UInt8.ofNat (0x80 + code / 64 % 64) ::
        UInt8.ofNat (0x80 + code % 64) :: (← utf8Encode rest))
    else match rest with
      | [] => throw "URI malformed"
      | second :: others =>
        if code < 0xDC00 ∧ 0xDC00 ≤ second.toNat ∧ second.toNat < 0xE000 then do
          let point := 0x10000 + (code - 0xD800) * 1024 + (second.toNat - 0xDC00)
          pure (UInt8.ofNat (0xF0 + point / 262144) :: UInt8.ofNat (0x80 + point / 4096 % 64) ::
            UInt8.ofNat (0x80 + point / 64 % 64) :: UInt8.ofNat (0x80 + point % 64) ::
            (← utf8Encode others))
        else throw "URI malformed"

/-- The body of the loop of `processString`. -/
def processByte (rem : UInt32) (byte : UInt8) : UInt32 :=
  (rem >>> 8) ^^^ table.getD ((byte.toUInt32 ^^^ rem) &&& 0xFF).toNat 0

/-- `crc32.run`. -/
def run (str : JsString) : Except String Nat := do
  let bytes ← utf8Encode str
  pure (bytes.foldl processByte 0xFFFFFFFF ^^^ 0xFFFFFFFF).toNat

end Crc32

/-! ### The script -/

namespace Mnemonic

/-- One of `mn_words`. -/
structure Wordset where
  prefixLen : Nat
  words : List JsString

/-- `trunc_words`, which is only there for lists with a length of their own. -/
def Wordset.truncWords (wordset : Wordset) : List JsString :=
  wordset.words.map fun word => word.take wordset.prefixLen

/-- `mn_get_checksum_index`. -/
def mnGetChecksumIndex (words : List JsString) (prefixLen : Nat) : Except String Nat := do
  let checksum ← Crc32.run (words.flatMap fun word => word.take prefixLen)
  pure (checksum % words.length)

/-- `mn_swap_endian_4byte`. -/
def mnSwapEndian4byte (str : JsString) : Except String JsString :=
  if str.length ≠ 8 then throw ("Invalid input length: " ++ toString str.length)
  else pure ((str.drop 6).take 2 ++ (str.drop 4).take 2 ++ (str.drop 2).take 2 ++ str.take 2)

/-- `words[index]`, where nothing stands for `undefined`. -/
def wordAt (words : List JsString) (index : Int) : Option JsString :=
  if index < 0 then none else words[index.toNat]?

/-- The words of a number, in a round of the second loop of `mn_encode`. The remainder has the
sign of the number, and `NaN` is no index. -/
def encodeBlock (wordset : Wordset) (str : JsString) : List (Option JsString) :=
  let n : Int := wordset.words.length
  match parseInt16 str with
  | none => [none, none, none]
  | some x =>
    let w1 := x.tmod n
    let w2 := (x / n + w1).tmod n
    let w3 := (x / n / n + w2).tmod n
    [wordAt wordset.words w1, wordAt wordset.words w2, wordAt wordset.words w3]

/-- The strings of a list. Reading a property of one that is undefined is an error. -/
def defined (out : List (Option JsString)) : Except String (List JsString) :=
  out.mapM fun word => match word with
    | none => throw "TypeError"
    | some word => pure word

/-- `mn_encode`. -/
def mnEncode (wordset : Wordset) (str : JsString) : Except String JsString := do
  let str ← (List.range ((str.length + 7) / 8)).foldlM (fun str j => do
    let swapped ← mnSwapEndian4byte ((str.drop (j * 8)).take 8)
    pure (str.take (j * 8) ++ swapped ++ str.drop (j * 8 + 8))) str
  let out := (List.range ((str.length + 7) / 8)).flatMap fun i =>
    encodeBlock wordset ((str.drop (i * 8)).take 8)
  if wordset.prefixLen > 0 then
    let index ← mnGetChecksumIndex (← defined out) wordset.prefixLen
    return [32].intercalate ((out ++ [(out[index]?).getD none]).map fun word => word.getD [])
  return [32].intercalate (out.map fun word => word.getD [])

/-- Where a word of a phrase is found in the list. -/
def Wordset.lookup (wordset : Wordset) (word : JsString) : Option Nat :=
  if wordset.prefixLen = 0 then wordset.words.idxOf? word
  else wordset.truncWords.idxOf? (word.take wordset.prefixLen)

/-- The number of three positions in a list of so many words. -/
def groupNumber (n w1 w2 w3 : Nat) : Nat :=
  w1 + n * ((n - w1 + w2) % n) + n * n * ((n - w2 + w3) % n)

/-- A round of the loop of `mn_decode`. -/
def decodeGroup (wordset : Wordset) (first second third : JsString) : Except String JsString :=
  let n := wordset.words.length
  match wordset.lookup first, wordset.lookup second, wordset.lookup third with
  | some w1, some w2, some w3 =>
    let x := groupNumber n w1 w2 w3
    if x % n ≠ w1 then
      throw "Something went wrong when decoding your private key, please try again"
    else
      mnSwapEndian4byte (JsString.sliceLast (JsString.ofString "0000000" ++ toString16 x) 8)
  | _, _, _ => throw "invalid word in mnemonic"

/-- The loop of `mn_decode`. -/
def decodeGroups (wordset : Wordset) (wlist : List JsString) : Except String JsString := do
  let parts ← (List.range (wlist.length / 3)).mapM fun i =>
    decodeGroup wordset (wlist.getD (i * 3) []) (wlist.getD (i * 3 + 1) [])
      (wlist.getD (i * 3 + 2) [])
  pure parts.flatten

/-- `mn_decode`. -/
def mnDecode (toLowerCase : JsString → JsString) (wordset : Wordset) (str : JsString) :
    Except String JsString := do
  let wlist := (toLowerCase str).splitOn 32
  if wlist.length < 12 then throw "You've entered too few words, please try again"
  if (wordset.prefixLen = 0 ∧ wlist.length % 3 ≠ 0) ∨
      (wordset.prefixLen > 0 ∧ wlist.length % 3 = 2) then
    throw "You've entered too few words, please try again"
  if wordset.prefixLen > 0 ∧ wlist.length % 3 = 0 then
    throw "You seem to be missing the last word in your private key, please try again"
  if wordset.prefixLen > 0 then
    let checksumWord := wlist.getLastD []
    let wlist := wlist.dropLast
    let out ← decodeGroups wordset wlist
    let index ← mnGetChecksumIndex wlist wordset.prefixLen
    let expectedChecksumWord := wlist.getD index []
    if expectedChecksumWord.take wordset.prefixLen ≠ checksumWord.take wordset.prefixLen then
      throw "Your private key could not be verified, please try again"
    return out
  decodeGroups wordset wlist

/-! ### Three positions of a number -/

/-- The positions of the words of a number. -/
def positions (n x : Nat) : Nat × Nat × Nat :=
  (x % n, (x / n + x % n) % n, (x / n / n + (x / n + x % n) % n) % n)

theorem sub_add_mod {n start : Nat} (small : start ≤ n) (more : Nat) :
    (n - start + (more + start) % n) % n = more % n := by
  rw [Nat.add_mod_mod, show n - start + (more + start) = more + n by omega, Nat.add_mod_right]

theorem sub_add_mod_add {n start stop : Nat} (startSmall : start ≤ n) (stopSmall : stop < n) :
    ((n - start + stop) % n + start) % n = stop := by
  rw [Nat.mod_add_mod, show n - start + stop + start = stop + n by omega, Nat.add_mod_right,
    Nat.mod_eq_of_lt stopSmall]

/-- Every number that three words have room for is the number of its positions. -/
theorem groupNumber_positions {n x : Nat} (positive : 0 < n) (room : x < n * n * n) :
    groupNumber n (positions n x).1 (positions n x).2.1 (positions n x).2.2 = x := by
  have first : x % n < n := Nat.mod_lt _ positive
  have second : (x / n + x % n) % n < n := Nat.mod_lt _ positive
  have top : x / n / n < n := by
    rw [Nat.div_div_eq_div_mul]
    exact Nat.div_lt_of_lt_mul room
  unfold groupNumber positions
  dsimp only
  rw [sub_add_mod (Nat.le_of_lt first), sub_add_mod (Nat.le_of_lt second), Nat.mod_eq_of_lt top]
  calc x % n + n * (x / n % n) + n * n * (x / n / n)
      = x % n + n * (x / n % n + n * (x / n / n)) := by ring
    _ = x := by rw [Nat.mod_add_div, Nat.mod_add_div]

/-- The positions of the number of three words are those of the words. -/
theorem positions_groupNumber {n w1 w2 w3 : Nat} (first : w1 < n) (second : w2 < n)
    (third : w3 < n) : positions n (groupNumber n w1 w2 w3) = (w1, w2, w3) := by
  have positive : 0 < n := Nat.zero_lt_of_lt first
  have middle : (n - w1 + w2) % n < n := Nat.mod_lt _ positive
  have number : groupNumber n w1 w2 w3 =
      w1 + n * ((n - w1 + w2) % n + n * ((n - w2 + w3) % n)) := by
    unfold groupNumber
    ring
  have remainder : groupNumber n w1 w2 w3 % n = w1 := by
    rw [number, Nat.add_mul_mod_self_left, Nat.mod_eq_of_lt first]
  have quotient : groupNumber n w1 w2 w3 / n =
      (n - w1 + w2) % n + n * ((n - w2 + w3) % n) := by
    rw [number, Nat.add_mul_div_left _ _ positive, Nat.div_eq_of_lt first, Nat.zero_add]
  have top : groupNumber n w1 w2 w3 / n / n = (n - w2 + w3) % n := by
    rw [quotient, Nat.add_mul_div_left _ _ positive, Nat.div_eq_of_lt middle, Nat.zero_add]
  have secondBack : (groupNumber n w1 w2 w3 / n + w1) % n = w2 := by
    rw [quotient, Nat.add_right_comm, Nat.add_mul_mod_self_left,
      sub_add_mod_add (Nat.le_of_lt first) second]
  unfold positions
  rw [remainder, secondBack, top, sub_add_mod_add (Nat.le_of_lt second) third]

theorem groupNumber_lt {n : Nat} (w1 w2 w3 : Nat) (first : w1 < n) :
    groupNumber n w1 w2 w3 < n * n * n := by
  have positive : 0 < n := Nat.zero_lt_of_lt first
  have middle : (n - w1 + w2) % n ≤ n - 1 := Nat.le_sub_one_of_lt (Nat.mod_lt _ positive)
  have top : (n - w2 + w3) % n ≤ n - 1 := Nat.le_sub_one_of_lt (Nat.mod_lt _ positive)
  obtain ⟨m, rfl⟩ := Nat.exists_eq_succ_of_ne_zero (Nat.ne_of_gt positive)
  unfold groupNumber
  calc w1 + (m + 1) * (((m + 1) - w1 + w2) % (m + 1)) +
        (m + 1) * (m + 1) * (((m + 1) - w2 + w3) % (m + 1))
      ≤ m + (m + 1) * m + (m + 1) * (m + 1) * m := by
        gcongr
        · omega
        · exact middle
        · exact top
    _ < (m + 1) * (m + 1) * (m + 1) := by ring_nf; omega

/-- The loop never finds what it checks for. -/
theorem groupNumber_mod {n w1 : Nat} (first : w1 < n) (w2 w3 : Nat) :
    groupNumber n w1 w2 w3 % n = w1 := by
  unfold groupNumber
  rw [Nat.mul_assoc, Nat.add_mul_mod_self_left, Nat.add_mul_mod_self_left, Nat.mod_eq_of_lt first]

/-! ### Blocks of eight digits -/

/-- A block with its bytes the other way round. -/
def swapped (block : JsString) : JsString :=
  (block.drop 6).take 2 ++ (block.drop 4).take 2 ++ (block.drop 2).take 2 ++ block.take 2

theorem mnSwapEndian4byte_eq {block : JsString} (eight : block.length = 8) :
    mnSwapEndian4byte block = .ok (swapped block) := by
  rw [mnSwapEndian4byte, if_neg (not_not_intro eight)]
  rfl

theorem exists_units {block : JsString} (eight : block.length = 8) :
    ∃ a b c d e f g h, block = [a, b, c, d, e, f, g, h] := by
  rcases block with _ | ⟨a, _ | ⟨b, _ | ⟨c, _ | ⟨d, _ | ⟨e, _ | ⟨f, _ | ⟨g, _ | ⟨h, rest⟩⟩⟩⟩⟩⟩⟩⟩
  case cons.cons.cons.cons.cons.cons.cons.cons =>
    have none : rest = [] := List.eq_nil_of_length_eq_zero (by simpa using eight)
    exact ⟨a, b, c, d, e, f, g, h, by rw [none]⟩
  all_goals simp at eight

theorem swapped_swapped {block : JsString} (eight : block.length = 8) :
    swapped (swapped block) = block := by
  obtain ⟨a, b, c, d, e, f, g, h, rfl⟩ := exists_units eight
  rfl

theorem length_swapped {block : JsString} (eight : block.length = 8) :
    (swapped block).length = 8 := by
  obtain ⟨a, b, c, d, e, f, g, h, rfl⟩ := exists_units eight
  rfl

theorem mem_of_mem_swapped {block : JsString} {unit : UInt16} (member : unit ∈ swapped block) :
    unit ∈ block := by
  unfold swapped at member
  rw [List.mem_append, List.mem_append, List.mem_append] at member
  rcases member with ((member | member) | member) | member
  · exact List.mem_of_mem_drop (List.mem_of_mem_take member)
  · exact List.mem_of_mem_drop (List.mem_of_mem_take member)
  · exact List.mem_of_mem_drop (List.mem_of_mem_take member)
  · exact List.mem_of_mem_take member

theorem isHex_swapped {block : JsString} (hex : IsHex block) : IsHex (swapped block) :=
  fun unit member => hex unit (mem_of_mem_swapped member)

/-- The number of a block of a seed, the lowest byte of which comes first. -/
def blockNumber (block : JsString) : Nat :=
  Positional.value 16 ((swapped block).filterMap hexDigit?)

/-- The block of a number, or of what is left of it in eight digits. -/
def blockOf (number : Nat) : JsString :=
  swapped ((Positional.digits 16 8 number).map hexUnit)

theorem length_written (number : Nat) :
    ((Positional.digits 16 8 number).map hexUnit).length = 8 := by
  rw [List.length_map, Positional.length_digits]

theorem length_blockOf (number : Nat) : (blockOf number).length = 8 :=
  length_swapped (length_written number)

theorem isHex_blockOf (number : Nat) : IsHex (blockOf number) :=
  isHex_swapped (isHex_map_hexUnit fun _ => Positional.digit_lt (by decide))

theorem blockNumber_lt {block : JsString} (hex : IsHex block) (eight : block.length = 8) :
    blockNumber block < 2 ^ 32 := by
  have bound := Positional.value_lt (by decide) (filterMap_hexDigit?_lt (swapped block))
  rwa [length_filterMap_hexDigit? (isHex_swapped hex), length_swapped eight] at bound

theorem blockNumber_blockOf (number : Nat) : blockNumber (blockOf number) = number % 2 ^ 32 := by
  rw [blockNumber, blockOf, swapped_swapped (length_written number),
    filterMap_map_hexUnit fun _ => Positional.digit_lt (by decide), Positional.value_digits]
  rfl

theorem blockOf_blockNumber {block : JsString} (hex : IsHex block) (eight : block.length = 8)
    (lower : lowerCase block = block) : blockOf (blockNumber block) = block := by
  have written := digits_value_hex (isHex_swapped hex)
  have lowerSwapped : lowerCase (swapped block) = swapped block := by
    obtain ⟨a, b, c, d, e, f, g, h, rfl⟩ := exists_units eight
    simp only [lowerCase, List.map_cons, List.map_nil, List.cons.injEq] at lower
    simp only [lowerCase, swapped, List.drop_succ_cons, List.drop_zero, List.take_succ_cons,
      List.take_zero, List.cons_append, List.nil_append, List.map_cons, List.map_nil, lower]
  rw [length_swapped eight, lowerSwapped] at written
  rw [blockOf, blockNumber, written, swapped_swapped eight]

/-! ### Encoding -/

/-- The words of a number. -/
def wordsOf (wordset : Wordset) (number : Nat) : List JsString :=
  [wordset.words.getD (positions wordset.words.length number).1 [],
    wordset.words.getD (positions wordset.words.length number).2.1 [],
    wordset.words.getD (positions wordset.words.length number).2.2 []]

theorem positions_lt {n : Nat} (positive : 0 < n) (x : Nat) :
    (positions n x).1 < n ∧ (positions n x).2.1 < n ∧ (positions n x).2.2 < n :=
  ⟨Nat.mod_lt _ positive, Nat.mod_lt _ positive, Nat.mod_lt _ positive⟩

theorem wordAt_natCast {words : List JsString} {index : Nat} (below : index < words.length) :
    wordAt words index = some (words.getD index []) := by
  rw [wordAt, if_neg (by omega), Int.toNat_natCast, List.getD_eq_getElem?_getD,
    List.getElem?_eq_getElem below, Option.getD_some]

theorem encodeBlock_eq {wordset : Wordset} (nonempty : 0 < wordset.words.length)
    {block : JsString} (hex : IsHex block) (eight : block.length = 8) :
    encodeBlock wordset (swapped block) =
      (wordsOf wordset (blockNumber block)).map some := by
  have nonzero : swapped block ≠ [] :=
    List.ne_nil_of_length_pos (by rw [length_swapped eight]; decide)
  obtain ⟨first, second, third⟩ := positions_lt nonempty (blockNumber block)
  unfold positions at first second third
  unfold encodeBlock
  rw [parseInt16_of_isHex (isHex_swapped hex) nonzero]
  show [wordAt _ _, wordAt _ _, wordAt _ _] = _
  rw [← blockNumber]
  simp only [← Int.ofNat_tmod, ← Int.natCast_ediv, ← Int.natCast_add]
  rw [wordAt_natCast first, wordAt_natCast second, wordAt_natCast third]
  rfl

/-- The blocks of a seed. -/
def seedBlocks (seed : JsString) : List JsString := Blocks.chunks 8 (seed.length / 8) seed

/-- Strings that are made of blocks of eight digits in lower case. -/
structure Seed (seed : JsString) : Prop where
  multiple : seed.length % 8 = 0
  digits : IsHex seed
  lower : lowerCase seed = seed

theorem length_of_mem_seedBlocks {seed block : JsString} (member : block ∈ seedBlocks seed) :
    block.length = 8 :=
  Blocks.length_of_mem_chunks (Nat.div_mul_le_self _ _) member

theorem Seed.flatten {seed : JsString} (valid : Seed seed) : (seedBlocks seed).flatten = seed := by
  have multiple := valid.multiple
  rw [seedBlocks, Blocks.flatten_chunks, List.take_of_length_le (by omega)]

theorem Seed.block {seed block : JsString} (valid : Seed seed) (member : block ∈ seedBlocks seed) :
    IsHex block ∧ lowerCase block = block := by
  have inside (unit : UInt16) (present : unit ∈ block) : unit ∈ seed :=
    valid.flatten ▸ List.mem_flatten_of_mem member present
  refine ⟨fun unit present => valid.digits unit (inside unit present), ?_⟩
  have lower : seed.map lowerCaseUnit = seed.map id := by
    rw [List.map_id]
    exact valid.lower
  refine (List.map_congr_left fun unit present => ?_).trans (List.map_id block)
  exact List.map_inj_left.mp lower unit (inside unit present)

theorem seed_flatten {blocks : List JsString}
    (each : ∀ block ∈ blocks, block.length = 8 ∧ IsHex block ∧ lowerCase block = block) :
    Seed blocks.flatten ∧ seedBlocks blocks.flatten = blocks := by
  have sized : ∀ block ∈ blocks, block.length = 8 := fun block member => (each block member).1
  have length := Blocks.length_flatten_of_sized sized
  refine ⟨⟨by rw [length, Nat.mul_mod_left], ?_, ?_⟩, ?_⟩
  · intro unit member
    obtain ⟨block, present, inside⟩ := List.mem_flatten.mp member
    exact (each block present).2.1 unit inside
  · rw [lowerCase, List.map_flatten]
    congr 1
    exact (List.map_congr_left fun block member => (each block member).2.2).trans (List.map_id _)
  · have cut := Blocks.chunks_flatten_append sized []
    rw [List.append_nil] at cut
    rw [seedBlocks, length, Nat.mul_div_cancel _ (by decide), cut]

/-- The first loop turns every block round. -/
theorem swap_loop {seed : JsString} (multiple : seed.length % 8 = 0) :
    (List.range ((seed.length + 7) / 8)).foldlM (fun str j => do
        let swapped ← mnSwapEndian4byte ((str.drop (j * 8)).take 8)
        pure (str.take (j * 8) ++ swapped ++ str.drop (j * 8 + 8))) seed =
      (.ok ((seedBlocks seed).map swapped).flatten : Except String JsString) := by
  have count : (seed.length + 7) / 8 = seed.length / 8 := by omega
  have inside : seed.length / 8 * 8 ≤ seed.length := Nat.div_mul_le_self _ _
  have eight (index : Nat) (below : index < seed.length / 8) :
      (Blocks.chunk 8 seed index).length = 8 :=
    Blocks.length_chunk (Nat.le_trans (Nat.mul_le_mul_right _ below) inside)
  rw [count, Blocks.foldlM_range_write 8 (fun index => .ok (swapped (Blocks.chunk 8 seed index)))
    ?writes ?sized]
  case writes =>
    intro index below written start
    have block : ((written ++ seed.drop (index * 8)).drop (index * 8)).take 8 =
        Blocks.chunk 8 seed index := by
      rw [← start, List.drop_left, start, Blocks.chunk]
    have rest : (written ++ seed.drop (index * 8)).drop (index * 8 + 8) =
        seed.drop ((index + 1) * 8) := by
      rw [← List.drop_drop, ← start, List.drop_left, start, List.drop_drop, Nat.succ_mul]
    rw [block, mnSwapEndian4byte_eq (eight index below), rest]
    show Except.ok ((written ++ _).take _ ++ _ ++ _) = _
    rw [← start, List.take_left]
    rfl
  case sized =>
    intro index below block done
    cases done
    exact length_swapped (eight index below)
  have all : (List.range (seed.length / 8)).mapM
        (fun index => (.ok (swapped (Blocks.chunk 8 seed index)) : Except String JsString)) =
      .ok ((seedBlocks seed).map swapped) := by
    rw [seedBlocks, Blocks.chunks, List.map_map]
    exact List.mapM_pure
  rw [all]
  show Except.ok (_ ++ seed.drop _) = _
  rw [List.drop_of_length_le (by omega), List.append_nil]

/-- The words of a seed, without the checksum. -/
def seedWords (wordset : Wordset) (seed : JsString) : List JsString :=
  (seedBlocks seed).flatMap fun block => wordsOf wordset (blockNumber block)

theorem words_loop {wordset : Wordset} (nonempty : 0 < wordset.words.length) {seed : JsString}
    (valid : Seed seed) :
    ((List.range ((((seedBlocks seed).map swapped).flatten.length + 7) / 8)).flatMap fun i =>
        encodeBlock wordset ((((seedBlocks seed).map swapped).flatten.drop (i * 8)).take 8)) =
      (seedWords wordset seed).map some := by
  have sized : ∀ block ∈ (seedBlocks seed).map swapped, block.length = 8 := by
    intro written member
    obtain ⟨block, present, rfl⟩ := List.mem_map.mp member
    exact length_swapped (length_of_mem_seedBlocks present)
  have length := Blocks.length_flatten_of_sized sized
  have count : (((seedBlocks seed).map swapped).flatten.length + 7) / 8 =
      ((seedBlocks seed).map swapped).length := by omega
  have cut := Blocks.chunks_flatten_append sized []
  rw [List.append_nil] at cut
  rw [count]
  show ((List.range _).flatMap fun i => encodeBlock wordset (Blocks.chunk 8 _ i)) = _
  rw [← List.flatMap_map, ← Blocks.chunks, cut, List.flatMap_map, seedWords, List.map_flatMap]
  refine List.flatMap_congr fun block member => ?_
  exact encodeBlock_eq nonempty (valid.block member).1 (length_of_mem_seedBlocks member)

/-- The words of a phrase: those of a seed and, for some lists, one of them again. -/
def withChecksum (wordset : Wordset) (words : List JsString) : Except String (List JsString) :=
  if wordset.prefixLen > 0 then
    (mnGetChecksumIndex words wordset.prefixLen).map fun index => words ++ [words.getD index []]
  else pure words

theorem mnEncode_eq {wordset : Wordset} (nonempty : 0 < wordset.words.length) {seed : JsString}
    (valid : Seed seed) :
    mnEncode wordset seed =
      (withChecksum wordset (seedWords wordset seed)).map
        fun phrase => [32].intercalate phrase := by
  have texts : ((seedWords wordset seed).map some).map (fun word => word.getD []) =
      seedWords wordset seed := by
    rw [List.map_map]
    exact List.map_id _
  unfold mnEncode
  rw [swap_loop valid.multiple]
  show (if wordset.prefixLen > 0 then _ else _) = _
  rw [words_loop nonempty valid, withChecksum]
  by_cases checked : wordset.prefixLen > 0
  · have strings : defined ((seedWords wordset seed).map some) = .ok (seedWords wordset seed) := by
      unfold defined
      rw [List.mapM_map]
      refine List.mapM_pure.trans ?_
      rw [List.map_id']
      rfl
    rw [if_pos checked, if_pos checked, strings]
    show (mnGetChecksumIndex _ _ >>= _) = _
    cases mnGetChecksumIndex (seedWords wordset seed) wordset.prefixLen with
    | error failure => rfl
    | ok index =>
      show Except.ok _ = Except.ok _
      dsimp only
      rw [List.map_append, texts, List.map_singleton, List.getElem?_map,
        List.getD_eq_getElem?_getD]
      cases (seedWords wordset seed)[index]? <;> rfl
  · rw [if_neg checked, if_neg checked, texts]
    rfl

/-! ### Decoding -/

/-- What of a word is compared with the list. -/
def Wordset.keyOf (wordset : Wordset) (word : JsString) : JsString :=
  if wordset.prefixLen = 0 then word else word.take wordset.prefixLen

theorem Wordset.lookup_eq (wordset : Wordset) (word : JsString) :
    wordset.lookup word = (wordset.words.map wordset.keyOf).idxOf? (wordset.keyOf word) := by
  unfold Wordset.lookup Wordset.truncWords Wordset.keyOf
  by_cases whole : wordset.prefixLen = 0
  · simp only [if_pos whole, List.map_id']
  · simp only [if_neg whole]

/-- A word that is found has the key of the word at its position. -/
theorem Wordset.lookup_some {wordset : Wordset} {word : JsString} {position : Nat}
    (found : wordset.lookup word = some position) :
    position < wordset.words.length ∧
      wordset.keyOf (wordset.words.getD position []) = wordset.keyOf word := by
  rw [wordset.lookup_eq] at found
  obtain ⟨below, same, _⟩ := List.idxOf?_eq_some_iff.mp found
  rw [List.length_map] at below
  rw [List.getElem_map] at same
  refine ⟨below, ?_⟩
  rw [List.getD_eq_getElem?_getD, List.getElem?_eq_getElem below, Option.getD_some, same]

/-- Where no two words have one key, every word is found where it stands. -/
theorem Wordset.lookup_of_key {wordset : Wordset}
    (distinct : (wordset.words.map wordset.keyOf).Nodup) {word : JsString} {position : Nat}
    (below : position < wordset.words.length)
    (same : wordset.keyOf (wordset.words.getD position []) = wordset.keyOf word) :
    wordset.lookup word = some position := by
  have bound : position < (wordset.words.map wordset.keyOf).length := by
    rwa [List.length_map]
  have here : (wordset.words.map wordset.keyOf)[position] = wordset.keyOf word := by
    rw [List.getElem_map, ← same, List.getD_eq_getElem?_getD, List.getElem?_eq_getElem below,
      Option.getD_some]
  rw [wordset.lookup_eq]
  refine List.idxOf?_eq_some_iff.mpr ⟨bound, here, fun earlier before other => ?_⟩
  have equal := distinct.getElem_inj_iff.mp (other.trans here.symm)
  omega

/-- The number of a group of three words. -/
def Wordset.number? (wordset : Wordset) (group : List JsString) : Option Nat :=
  match wordset.lookup (group.getD 0 []), wordset.lookup (group.getD 1 []),
    wordset.lookup (group.getD 2 []) with
  | some w1, some w2, some w3 => some (groupNumber wordset.words.length w1 w2 w3)
  | _, _, _ => none

theorem decodeGroup_eq_ok_iff {wordset : Wordset} {group : List JsString} {block : JsString} :
    decodeGroup wordset (group.getD 0 []) (group.getD 1 []) (group.getD 2 []) = .ok block ↔
      ∃ number, wordset.number? group = some number ∧ block = blockOf number := by
  unfold decodeGroup Wordset.number?
  cases firstFound : wordset.lookup (group.getD 0 []) with
  | none => simp [throw, throwThe, MonadExceptOf.throw]
  | some w1 =>
    cases wordset.lookup (group.getD 1 []) with
    | none => simp [throw, throwThe, MonadExceptOf.throw]
    | some w2 =>
      cases wordset.lookup (group.getD 2 []) with
      | none => simp [throw, throwThe, MonadExceptOf.throw]
      | some w3 =>
        have remainder := groupNumber_mod (Wordset.lookup_some firstFound).1 w2 w3
        have written := toString16_eq (show 0 < 8 by decide)
          (groupNumber wordset.words.length w1 w2 w3)
        have zeros : JsString.ofString "0000000" = List.replicate (8 - 1) 48 := by decide +kernel
        simp only [Option.some.injEq]
        rw [if_neg (not_not_intro remainder), zeros, written,
          mnSwapEndian4byte_eq (length_written _), Except.ok.injEq]
        constructor
        · exact fun same => ⟨_, rfl, same.symm⟩
        · rintro ⟨_, rfl, rfl⟩
          rfl

/-- The groups of three words of a phrase. -/
def groups (wlist : List JsString) : List (List JsString) :=
  Blocks.chunks 3 (wlist.length / 3) wlist

theorem decodeGroups_eq_ok_iff {wordset : Wordset} {wlist : List JsString} {seed : JsString} :
    decodeGroups wordset wlist = .ok seed ↔
      ∃ numbers, List.Forall₂ (fun group number => wordset.number? group = some number)
        (groups wlist) numbers ∧ seed = (numbers.map blockOf).flatten := by
  have each (index : Nat) : decodeGroup wordset (wlist.getD (index * 3) [])
        (wlist.getD (index * 3 + 1) []) (wlist.getD (index * 3 + 2) []) =
      decodeGroup wordset ((Blocks.chunk 3 wlist index).getD 0 [])
        ((Blocks.chunk 3 wlist index).getD 1 []) ((Blocks.chunk 3 wlist index).getD 2 []) := by
    simp only [Blocks.chunk, List.getD_eq_getElem?_getD, List.getElem?_take, List.getElem?_drop,
      Nat.add_zero]
    rfl
  unfold decodeGroups
  simp only [each]
  rw [Blocks.bind_eq_ok_iff]
  have read (parts : List JsString) : (List.range (wlist.length / 3)).mapM (fun index =>
        decodeGroup wordset ((Blocks.chunk 3 wlist index).getD 0 [])
          ((Blocks.chunk 3 wlist index).getD 1 []) ((Blocks.chunk 3 wlist index).getD 2 [])) =
        .ok parts ↔
      ∃ numbers, List.Forall₂ (fun group number => wordset.number? group = some number)
        (groups wlist) numbers ∧ parts = numbers.map blockOf := by
    rw [Blocks.mapM_range_chunk 3 _ wlist fun group =>
      decodeGroup wordset (group.getD 0 []) (group.getD 1 []) (group.getD 2 []),
      Blocks.mapM_eq_ok_iff, ← Blocks.forall₂_exists_map]
    simp only [decodeGroup_eq_ok_iff]
    rfl
  constructor
  · rintro ⟨parts, done, same⟩
    obtain ⟨numbers, found, rfl⟩ := (read parts).mp done
    cases same
    exact ⟨numbers, found, rfl⟩
  · rintro ⟨numbers, found, rfl⟩
    exact ⟨_, (read _).mpr ⟨numbers, found, rfl⟩, rfl⟩

/-- The words of a phrase without the checksum word. -/
def bodyOf (wordset : Wordset) (wlist : List JsString) : List JsString :=
  if wordset.prefixLen > 0 then wlist.dropLast else wlist

/-- What the words of a phrase must be like to be read as a seed. -/
structure Decodes (wordset : Wordset) (wlist : List JsString) (seed : JsString) : Prop where
  long : 12 ≤ wlist.length
  thirds : wlist.length % 3 = if wordset.prefixLen > 0 then 1 else 0
  groups : decodeGroups wordset (bodyOf wordset wlist) = .ok seed
  checksum : wordset.prefixLen > 0 →
    ∃ index, mnGetChecksumIndex (bodyOf wordset wlist) wordset.prefixLen = .ok index ∧
      ((bodyOf wordset wlist).getD index []).take wordset.prefixLen =
        (wlist.getLastD []).take wordset.prefixLen

theorem mnDecode_eq_ok_iff {toLowerCase : JsString → JsString} {wordset : Wordset}
    {str seed : JsString} :
    mnDecode toLowerCase wordset str = .ok seed ↔
      Decodes wordset ((toLowerCase str).splitOn 32) seed := by
  unfold mnDecode
  generalize (toLowerCase str).splitOn 32 = wlist
  show (if wlist.length < 12 then _ else if _ then _ else if _ then _ else
    if wordset.prefixLen > 0 then _ else _) = _ ↔ _
  by_cases short : wlist.length < 12
  · rw [if_pos short]
    constructor
    · intro done
      cases done
    · exact fun decodes => absurd decodes.long (Nat.not_le.mpr short)
  rw [if_neg short]
  by_cases checked : wordset.prefixLen > 0
  · by_cases thirds : wlist.length % 3 = 1
    · have body : bodyOf wordset wlist = wlist.dropLast := if_pos checked
      rw [if_neg (by omega), if_neg (by omega), if_pos checked]
      show (decodeGroups wordset wlist.dropLast >>= _) = _ ↔ _
      rw [Blocks.bind_eq_ok_iff]
      constructor
      · rintro ⟨out, groups, done⟩
        obtain ⟨index, sum, done⟩ := Blocks.bind_eq_ok_iff.mp done
        by_cases same : (wlist.dropLast.getD index []).take wordset.prefixLen =
            (wlist.getLastD []).take wordset.prefixLen
        · replace done := (if_neg (not_not_intro same)).symm.trans done
          cases done
          exact ⟨Nat.not_lt.mp short, by rw [if_pos checked, thirds], by rw [body, groups],
            fun _ => ⟨index, by rw [body, sum], by rw [body, same]⟩⟩
        · cases (if_pos same).symm.trans done
      · intro decodes
        obtain ⟨index, sum, same⟩ := decodes.checksum checked
        have groups := decodes.groups
        rw [body] at groups sum same
        exact ⟨seed, groups, Blocks.bind_eq_ok_iff.mpr ⟨index, sum,
          if_neg (not_not_intro same)⟩⟩
    · have refused (decodes : Decodes wordset wlist seed) : False := by
        have rest := decodes.thirds
        rw [if_pos checked] at rest
        exact thirds rest
      by_cases two : wlist.length % 3 = 2
      · rw [if_pos (.inr ⟨checked, two⟩)]
        constructor
        · intro done
          cases done
        · exact fun decodes => (refused decodes).elim
      · rw [if_neg (by omega), if_pos ⟨checked, by omega⟩]
        constructor
        · intro done
          cases done
        · exact fun decodes => (refused decodes).elim
  · have body : bodyOf wordset wlist = wlist := if_neg checked
    have whole : wordset.prefixLen = 0 := by omega
    by_cases thirds : wlist.length % 3 = 0
    · rw [if_neg (by omega), if_neg (by omega), if_neg checked]
      constructor
      · exact fun groups => ⟨Nat.not_lt.mp short, by rw [if_neg checked, thirds],
          by rw [body, groups], fun absurdly => absurd absurdly checked⟩
      · intro decodes
        have groups := decodes.groups
        rwa [body] at groups
    · rw [if_pos (.inl ⟨whole, thirds⟩)]
      constructor
      · intro done
        cases done
      · intro decodes
        have rest := decodes.thirds
        rw [if_neg checked] at rest
        exact absurd rest thirds

/-! ### Seeds are read as they were written -/

/-- A list of 1626 words in lower case, without spaces and halves of pairs of code units, and
without two words that are compared alike. -/
structure Wordset.Proper (toLowerCase : JsString → JsString) (wordset : Wordset) : Prop where
  count : wordset.words.length = 1626
  spaceless : ∀ word ∈ wordset.words, 32 ∉ word
  lower : ∀ phrase : List JsString, (∀ word ∈ phrase, word ∈ wordset.words) →
    toLowerCase ([32].intercalate phrase) = [32].intercalate phrase
  whole : ∀ word ∈ wordset.words, ∀ unit ∈ word, unit.toNat < 0xD800 ∨ 0xE000 ≤ unit.toNat
  distinct : (wordset.words.map wordset.keyOf).Nodup

theorem utf8Encode_isOk {str : JsString}
    (whole : ∀ unit ∈ str, unit.toNat < 0xD800 ∨ 0xE000 ≤ unit.toNat) :
    ∃ bytes, Crc32.utf8Encode str = .ok bytes := by
  induction str with
  | nil => exact ⟨[], rfl⟩
  | cons unit rest inductionHypothesis =>
    obtain ⟨bytes, encoded⟩ := inductionHypothesis
      fun other member => whole other (List.mem_cons_of_mem _ member)
    have single := whole unit List.mem_cons_self
    unfold Crc32.utf8Encode
    rw [encoded]
    dsimp only
    by_cases one : unit.toNat < 0x80
    · rw [if_pos one]
      exact ⟨_, rfl⟩
    · rw [if_neg one]
      by_cases two : unit.toNat < 0x800
      · rw [if_pos two]
        exact ⟨_, rfl⟩
      · rw [if_neg two, if_pos single]
        exact ⟨_, rfl⟩

theorem getD_mem {words : List JsString} {index : Nat} (below : index < words.length) :
    words.getD index [] ∈ words := by
  rw [List.getD_eq_getElem?_getD, List.getElem?_eq_getElem below, Option.getD_some]
  exact List.getElem_mem below

theorem mem_wordsOf {wordset : Wordset} (nonempty : 0 < wordset.words.length) {number : Nat}
    {word : JsString} (member : word ∈ wordsOf wordset number) : word ∈ wordset.words := by
  obtain ⟨first, second, third⟩ := positions_lt nonempty number
  unfold wordsOf at member
  simp only [List.mem_cons, List.not_mem_nil, or_false] at member
  rcases member with rfl | rfl | rfl
  · exact getD_mem first
  · exact getD_mem second
  · exact getD_mem third

theorem mem_seedWords {wordset : Wordset} (nonempty : 0 < wordset.words.length)
    {seed word : JsString} (member : word ∈ seedWords wordset seed) : word ∈ wordset.words := by
  obtain ⟨block, _, inside⟩ := List.mem_flatMap.mp member
  exact mem_wordsOf nonempty inside

theorem length_of_mem_wordsOf (wordset : Wordset) (blocks : List JsString) :
    ∀ group ∈ blocks.map (fun block => wordsOf wordset (blockNumber block)), group.length = 3 := by
  intro group member
  obtain ⟨block, _, rfl⟩ := List.mem_map.mp member
  rfl

theorem length_seedWords (wordset : Wordset) (seed : JsString) :
    (seedWords wordset seed).length = seed.length / 8 * 3 := by
  rw [seedWords, List.flatMap_def, Blocks.length_flatten_of_sized (length_of_mem_wordsOf wordset _),
    List.length_map, seedBlocks, Blocks.length_chunks]

theorem groups_seedWords (wordset : Wordset) (seed : JsString) :
    groups (seedWords wordset seed) =
      (seedBlocks seed).map fun block => wordsOf wordset (blockNumber block) := by
  have cut := Blocks.chunks_flatten_append (length_of_mem_wordsOf wordset (seedBlocks seed)) []
  rw [List.append_nil, List.length_map, seedBlocks, Blocks.length_chunks, ← seedBlocks,
    ← List.flatMap_def] at cut
  rw [groups, length_seedWords, Nat.mul_div_cancel _ (by decide)]
  exact cut

/-- The positions of a number are found again, and the number is computed from them. -/
theorem number?_wordsOf {wordset : Wordset} (distinct : (wordset.words.map wordset.keyOf).Nodup)
    (nonempty : 0 < wordset.words.length) {number : Nat}
    (room : number < wordset.words.length * wordset.words.length * wordset.words.length) :
    wordset.number? (wordsOf wordset number) = some number := by
  obtain ⟨first, second, third⟩ := positions_lt nonempty number
  have firstFound := Wordset.lookup_of_key distinct first rfl
  have secondFound := Wordset.lookup_of_key distinct second rfl
  have thirdFound := Wordset.lookup_of_key distinct third rfl
  unfold Wordset.number? wordsOf
  simp only [List.getD_cons_zero, List.getD_cons_succ, firstFound, secondFound, thirdFound,
    groupNumber_positions nonempty room]

theorem decodeGroups_seedWords {wordset : Wordset}
    (distinct : (wordset.words.map wordset.keyOf).Nodup) (count : wordset.words.length = 1626)
    {seed : JsString} (valid : Seed seed) :
    decodeGroups wordset (seedWords wordset seed) = .ok seed := by
  refine decodeGroups_eq_ok_iff.mpr ⟨(seedBlocks seed).map blockNumber, ?_, ?_⟩
  · rw [groups_seedWords, List.forall₂_map_left_iff, List.forall₂_map_right_iff]
    refine List.forall₂_same.mpr fun block member => ?_
    have small := blockNumber_lt (valid.block member).1 (length_of_mem_seedBlocks member)
    refine number?_wordsOf distinct (by omega) (Nat.lt_of_lt_of_le small ?_)
    rw [count]
    decide
  · rw [List.map_map]
    refine valid.flatten.symm.trans (congrArg List.flatten ?_)
    refine ((List.map_congr_left fun block member => ?_).trans (List.map_id _)).symm
    exact blockOf_blockNumber (valid.block member).1 (length_of_mem_seedBlocks member)
      (valid.block member).2

/-- The words of a proper list have a checksum. -/
theorem withChecksum_isOk {toLowerCase : JsString → JsString} {wordset : Wordset}
    (proper : wordset.Proper toLowerCase) {words : List JsString}
    (known : ∀ word ∈ words, word ∈ wordset.words) :
    ∃ phrase, withChecksum wordset words = .ok phrase := by
  unfold withChecksum
  by_cases checked : wordset.prefixLen > 0
  · rw [if_pos checked]
    have whole : ∀ unit ∈ words.flatMap (fun word => word.take wordset.prefixLen),
        unit.toNat < 0xD800 ∨ 0xE000 ≤ unit.toNat := by
      intro unit member
      obtain ⟨word, present, inside⟩ := List.mem_flatMap.mp member
      exact proper.whole word (known word present) unit (List.mem_of_mem_take inside)
    obtain ⟨bytes, encoded⟩ := utf8Encode_isOk whole
    unfold mnGetChecksumIndex Crc32.run
    rw [encoded]
    exact ⟨_, rfl⟩
  · rw [if_neg checked]
    exact ⟨words, rfl⟩

/-- What a phrase of a seed consists of. -/
theorem withChecksum_ok {wordset : Wordset} {words phrase : List JsString}
    (done : withChecksum wordset words = .ok phrase) :
    (wordset.prefixLen > 0 ∧ ∃ index, mnGetChecksumIndex words wordset.prefixLen = .ok index ∧
        phrase = words ++ [words.getD index []]) ∨
      (¬ wordset.prefixLen > 0 ∧ phrase = words) := by
  unfold withChecksum at done
  by_cases checked : wordset.prefixLen > 0
  · rw [if_pos checked] at done
    cases sum : mnGetChecksumIndex words wordset.prefixLen with
    | error failure =>
      rw [sum] at done
      cases done
    | ok index =>
      rw [sum] at done
      cases done
      exact .inl ⟨checked, index, rfl, rfl⟩
  · rw [if_neg checked] at done
    cases done
    exact .inr ⟨checked, rfl⟩

theorem mnGetChecksumIndex_lt {words : List JsString} {length index : Nat} (some : words ≠ [])
    (done : mnGetChecksumIndex words length = .ok index) : index < words.length := by
  unfold mnGetChecksumIndex at done
  obtain ⟨checksum, _, rest⟩ := Blocks.bind_eq_ok_iff.mp done
  cases rest
  exact Nat.mod_lt _ (List.length_pos_of_ne_nil some)

/-- All words of a phrase are words of the list. -/
theorem mem_withChecksum {wordset : Wordset} {words phrase : List JsString} (some : words ≠ [])
    (done : withChecksum wordset words = .ok phrase) {word : JsString} (member : word ∈ phrase) :
    word ∈ words := by
  rcases withChecksum_ok done with ⟨_, index, sum, rfl⟩ | ⟨_, rfl⟩
  · rcases List.mem_append.mp member with inside | last
    · exact inside
    · rw [List.mem_singleton.mp last]
      exact getD_mem (mnGetChecksumIndex_lt some sum)
  · exact member

/-- A phrase with the words of a seed and their checksum is read as the seed. -/
theorem decodes_withChecksum {wordset : Wordset} {words phrase : List JsString} {seed : JsString}
    (long : 12 ≤ words.length) (thirds : words.length % 3 = 0)
    (groups : decodeGroups wordset words = .ok seed)
    (done : withChecksum wordset words = .ok phrase) : Decodes wordset phrase seed := by
  rcases withChecksum_ok done with ⟨checked, index, sum, rfl⟩ | ⟨unchecked, rfl⟩
  · have body : bodyOf wordset (words ++ [words.getD index []]) = words := by
      rw [bodyOf, if_pos checked, List.dropLast_concat]
    refine ⟨?_, ?_, by rw [body, groups], fun _ => ⟨index, by rw [body, sum], ?_⟩⟩
    · rw [List.length_append]
      omega
    · rw [if_pos checked, List.length_append, List.length_singleton]
      omega
    · rw [body, List.getLastD_concat]
  · have body : bodyOf wordset phrase = phrase := if_neg unchecked
    exact ⟨long, by rw [if_neg unchecked, thirds], by rw [body, groups],
      fun checked => absurd checked unchecked⟩

/-- Decoding the phrase of a seed gives the seed. -/
theorem mnDecode_mnEncode {toLowerCase : JsString → JsString} {wordset : Wordset}
    (proper : wordset.Proper toLowerCase) {seed : JsString} (valid : Seed seed)
    (long : 32 ≤ seed.length) :
    (mnEncode wordset seed >>= mnDecode toLowerCase wordset) = .ok seed := by
  have nonempty : 0 < wordset.words.length := by
    rw [proper.count]
    decide
  have length := length_seedWords wordset seed
  have words : 12 ≤ (seedWords wordset seed).length := by omega
  have some : seedWords wordset seed ≠ [] := List.ne_nil_of_length_pos (by omega)
  have known : ∀ word ∈ seedWords wordset seed, word ∈ wordset.words :=
    fun word => mem_seedWords nonempty
  obtain ⟨phrase, done⟩ := withChecksum_isOk proper known
  have phraseKnown : ∀ word ∈ phrase, word ∈ wordset.words :=
    fun word member => known word (mem_withChecksum some done member)
  have decodes := decodes_withChecksum words (by omega)
    (decodeGroups_seedWords proper.distinct proper.count valid) done
  have phraseSome : phrase ≠ [] := List.ne_nil_of_length_pos (by have := decodes.long; omega)
  rw [mnEncode_eq nonempty valid, done]
  show mnDecode toLowerCase wordset ([32].intercalate phrase) = _
  refine mnDecode_eq_ok_iff.mpr ?_
  rw [proper.lower phrase phraseKnown, List.splitOn_intercalate 32
    (fun word member => proper.spaceless word (phraseKnown word member)) phraseSome]
  exact decodes

/-- Three letters for a number. -/
def letters (number : Nat) : JsString :=
  (Positional.digits 26 3 number).map fun digit => UInt16.ofNat (97 + digit)

/-- As many words as the English list has. -/
@[irreducible] def letterList : List JsString := (List.range 1626).map letters

/-- A list of words of three letters. -/
def letterWords : Wordset := ⟨3, letterList⟩

theorem length_letters (number : Nat) : (letters number).length = 3 := by
  rw [letters, List.length_map, Positional.length_digits]

theorem toNat_letter {digit : Nat} (small : digit < 26) :
    (UInt16.ofNat (97 + digit)).toNat = 97 + digit := by
  rw [UInt16.toNat_ofNat']
  omega

theorem letters_bounds {number : Nat} {unit : UInt16} (member : unit ∈ letters number) :
    97 ≤ unit.toNat ∧ unit.toNat < 123 := by
  obtain ⟨digit, present, rfl⟩ := List.mem_map.mp member
  have small := Positional.digit_lt (show 0 < 26 by decide) present
  rw [toNat_letter small]
  omega

theorem letters_inj {first second : Nat} (firstSmall : first < 26 ^ 3)
    (secondSmall : second < 26 ^ 3) (same : letters first = letters second) : first = second := by
  have read (number : Nat) : (letters number).map (fun unit => unit.toNat - 97) =
      Positional.digits 26 3 number := by
    rw [letters, List.map_map]
    refine (List.map_congr_left fun digit member => ?_).trans (List.map_id _)
    have small := Positional.digit_lt (show 0 < 26 by decide) member
    rw [Function.comp_apply, toNat_letter small, Nat.add_sub_cancel_left]
    rfl
  have digits := congrArg (List.map fun unit => unit.toNat - 97) same
  rw [read, read] at digits
  rw [← Positional.value_digits_of_lt firstSmall, digits,
    Positional.value_digits_of_lt secondSmall]

theorem lowerCase_intercalate {phrase : List JsString}
    (lower : ∀ word ∈ phrase, lowerCase word = word) :
    lowerCase ([32].intercalate phrase) = [32].intercalate phrase := by
  induction phrase with
  | nil => rfl
  | cons word rest inductionHypothesis =>
    have one := lower word List.mem_cons_self
    have others := inductionHypothesis fun other member =>
      lower other (List.mem_cons_of_mem _ member)
    by_cases last : rest = []
    · rw [last, List.intercalate_singleton, one]
    · have space : lowerCase [32] = [32] := by decide
      rw [List.intercalate_cons_of_ne_nil last]
      unfold lowerCase at *
      rw [List.map_append, List.map_append, one, space, others]

theorem mem_letterWords {word : JsString} (member : word ∈ letterWords.words) :
    ∃ number, word = letters number := by
  replace member : word ∈ letterList := member
  unfold letterList at member
  rw [List.mem_map] at member
  obtain ⟨number, _, same⟩ := member
  exact ⟨number, same.symm⟩

theorem letterWords_proper : letterWords.Proper lowerCase where
  count := by
    show letterList.length = 1626
    unfold letterList
    rw [List.length_map, List.length_range]
  spaceless := by
    intro word member space
    obtain ⟨number, rfl⟩ := mem_letterWords member
    exact absurd (letters_bounds space).1 (by decide)
  lower := by
    intro phrase known
    refine lowerCase_intercalate fun word member => ?_
    obtain ⟨number, rfl⟩ := mem_letterWords (known word member)
    refine (List.map_congr_left fun unit inside => ?_).trans (List.map_id _)
    have bounds := letters_bounds inside
    rw [lowerCaseUnit, if_neg (by omega)]
    rfl
  whole := by
    intro word member unit inside
    obtain ⟨number, rfl⟩ := mem_letterWords member
    have bounds := letters_bounds inside
    omega
  distinct := by
    have keys (number : Nat) : letterWords.keyOf (letters number) = letters number := by
      unfold Wordset.keyOf
      rw [if_neg (by decide)]
      exact List.take_of_length_le (Nat.le_of_eq (length_letters number))
    show (letterList.map letterWords.keyOf).Nodup
    unfold letterList
    rw [List.map_map]
    refine List.Nodup.map_on (fun first firstBelow second secondBelow same => ?_) List.nodup_range
    rw [List.mem_range] at firstBelow secondBelow
    rw [Function.comp_apply, Function.comp_apply, keys, keys] at same
    exact letters_inj (by omega) (by omega) same

theorem mnDecode_mnEncode_letters :
    (mnEncode letterWords (JsString.ofString "0123456789abcdeffedcba9876543210") >>=
        mnDecode lowerCase letterWords) =
      .ok (JsString.ofString "0123456789abcdeffedcba9876543210") :=
  mnDecode_mnEncode letterWords_proper
    ⟨by decide +kernel, by decide +kernel, by decide +kernel⟩ (by decide +kernel)

/-! ### Which phrases are what seeds are written with -/

/-- The words of a group stand where the words of some number of 32 bits stand. -/
def Encodes32 (wordset : Wordset) (group : List JsString) : Prop :=
  ∃ number < 2 ^ 32,
    wordset.lookup (group.getD 0 []) = some (positions wordset.words.length number).1 ∧
    wordset.lookup (group.getD 1 []) = some (positions wordset.words.length number).2.1 ∧
    wordset.lookup (group.getD 2 []) = some (positions wordset.words.length number).2.2

/-- The words of a phrase, in the lower case that they are looked up in. -/
def phraseWords (toLowerCase : JsString → JsString) (str : JsString) : List JsString :=
  (toLowerCase str).splitOn 32

/-- All groups of a phrase stand for numbers of 32 bits. -/
def Encodable (toLowerCase : JsString → JsString) (wordset : Wordset) (str : JsString) : Prop :=
  ∀ group ∈ groups (bodyOf wordset (phraseWords toLowerCase str)), Encodes32 wordset group

/-- Encoding the seed of a phrase gives the words of the phrase, up to letter case and, for
lists with a length of their own, up to the letters behind it. -/
def Reencoded (toLowerCase : JsString → JsString) (wordset : Wordset) (str seed : JsString) :
    Prop :=
  ∃ phrase, mnEncode wordset seed = .ok phrase ∧
    (phrase.splitOn 32).map wordset.keyOf = (phraseWords toLowerCase str).map wordset.keyOf

theorem number?_some {wordset : Wordset} {group : List JsString} {number : Nat}
    (found : wordset.number? group = some number) :
    ∃ w1 w2 w3, wordset.lookup (group.getD 0 []) = some w1 ∧
      wordset.lookup (group.getD 1 []) = some w2 ∧ wordset.lookup (group.getD 2 []) = some w3 ∧
      number = groupNumber wordset.words.length w1 w2 w3 := by
  unfold Wordset.number? at found
  split at found
  · next w1 w2 w3 first second third =>
    exact ⟨w1, w2, w3, first, second, third, (Option.some.inj found).symm⟩
  · cases found

/-- The positions of a number of 32 bits stand for a number of 32 bits, the same one if there is
room for it. -/
theorem groupNumber_positions_lt {n : Nat} (positive : 0 < n) {number : Nat}
    (small : number < 2 ^ 32) :
    groupNumber n (positions n number).1 (positions n number).2.1 (positions n number).2.2 <
      2 ^ 32 := by
  by_cases room : number < n * n * n
  · rwa [groupNumber_positions positive room]
  · exact Nat.lt_of_lt_of_le (groupNumber_lt _ _ _ (positions_lt positive number).1) (by omega)

theorem encodes32_iff {wordset : Wordset} {group : List JsString} {number : Nat}
    (found : wordset.number? group = some number) :
    Encodes32 wordset group ↔ number < 2 ^ 32 := by
  obtain ⟨w1, w2, w3, first, second, third, rfl⟩ := number?_some found
  have firstBelow := (Wordset.lookup_some first).1
  have back := positions_groupNumber firstBelow (Wordset.lookup_some second).1
    (Wordset.lookup_some third).1
  constructor
  · rintro ⟨number, small, firstAt, secondAt, thirdAt⟩
    rw [first] at firstAt
    rw [second] at secondAt
    rw [third] at thirdAt
    cases firstAt
    cases secondAt
    cases thirdAt
    exact groupNumber_positions_lt (Nat.zero_lt_of_lt firstBelow) small
  · intro small
    exact ⟨_, small, by rw [back, first], by rw [back, second], by rw [back, third]⟩

/-- The words of what is left of a group's number in 32 bits are those of the group if the number
has no more, and only then if every word is found where it stands. -/
theorem wordsOf_keys_of_lt {wordset : Wordset} {group : List JsString} {number : Nat}
    (three : group.length = 3) (found : wordset.number? group = some number)
    (small : number < 2 ^ 32) :
    (wordsOf wordset (number % 2 ^ 32)).map wordset.keyOf = group.map wordset.keyOf := by
  obtain ⟨w1, w2, w3, first, second, third, rfl⟩ := number?_some found
  obtain ⟨firstBelow, firstKey⟩ := Wordset.lookup_some first
  obtain ⟨secondBelow, secondKey⟩ := Wordset.lookup_some second
  obtain ⟨thirdBelow, thirdKey⟩ := Wordset.lookup_some third
  rw [Nat.mod_eq_of_lt small, wordsOf, positions_groupNumber firstBelow secondBelow thirdBelow]
  obtain ⟨a, b, c, rfl⟩ := List.length_eq_three.mp three
  simp only [List.map_cons, List.map_nil, firstKey, secondKey, thirdKey]
  rfl

theorem lt_of_wordsOf_keys {wordset : Wordset}
    (distinct : (wordset.words.map wordset.keyOf).Nodup) {group : List JsString} {number : Nat}
    (three : group.length = 3) (found : wordset.number? group = some number)
    (same : (wordsOf wordset (number % 2 ^ 32)).map wordset.keyOf = group.map wordset.keyOf) :
    number < 2 ^ 32 := by
  refine (encodes32_iff found).mp ⟨number % 2 ^ 32, Nat.mod_lt _ (by decide), ?_⟩
  obtain ⟨w1, _, _, first, _, _, _⟩ := number?_some found
  have nonempty := Nat.zero_lt_of_lt (Wordset.lookup_some first).1
  obtain ⟨firstBelow, secondBelow, thirdBelow⟩ := positions_lt nonempty (number % 2 ^ 32)
  obtain ⟨a, b, c, rfl⟩ := List.length_eq_three.mp three
  simp only [wordsOf, List.map_cons, List.map_nil, List.cons.injEq, and_true] at same
  obtain ⟨firstKey, secondKey, thirdKey⟩ := same
  exact ⟨Wordset.lookup_of_key distinct firstBelow firstKey,
    Wordset.lookup_of_key distinct secondBelow secondKey,
    Wordset.lookup_of_key distinct thirdBelow thirdKey⟩

/-- What a phrase that was read consists of: groups with their numbers, which make the seed. -/
structure Read (wordset : Wordset) (wlist : List JsString) (seed : JsString)
    (numbers : List Nat) : Prop where
  nonempty : 0 < wordset.words.length
  found : List.Forall₂ (fun group number => wordset.number? group = some number)
    (groups (bodyOf wordset wlist)) numbers
  blocks : seedBlocks seed = numbers.map blockOf
  valid : Seed seed
  whole : (groups (bodyOf wordset wlist)).flatten = bodyOf wordset wlist

theorem length_of_mem_groups {words group : List JsString} (member : group ∈ groups words) :
    group.length = 3 :=
  Blocks.length_of_mem_chunks (Nat.div_mul_le_self _ _) member

theorem lowerCase_blockOf (number : Nat) : lowerCase (blockOf number) = blockOf number := by
  have lower (unit : UInt16) (member : unit ∈ blockOf number) : lowerCaseUnit unit = unit := by
    obtain ⟨digit, present, rfl⟩ := List.mem_map.mp (mem_of_mem_swapped member)
    exact lowerCaseUnit_hexUnit (Positional.digit_lt (by decide) present)
  exact (List.map_congr_left lower).trans (List.map_id _)

theorem Decodes.body {wordset : Wordset} {wlist : List JsString} {seed : JsString}
    (decodes : Decodes wordset wlist seed) :
    (bodyOf wordset wlist).length % 3 = 0 ∧ 12 ≤ (bodyOf wordset wlist).length := by
  have long := decodes.long
  have thirds := decodes.thirds
  unfold bodyOf
  by_cases checked : wordset.prefixLen > 0
  · rw [if_pos checked] at thirds ⊢
    rw [List.length_dropLast]
    omega
  · rw [if_neg checked] at thirds ⊢
    exact ⟨thirds, long⟩

theorem exists_read {wordset : Wordset} {wlist : List JsString} {seed : JsString}
    (decodes : Decodes wordset wlist seed) : ∃ numbers, Read wordset wlist seed numbers := by
  obtain ⟨numbers, found, rfl⟩ := decodeGroups_eq_ok_iff.mp decodes.groups
  have length := decodes.body
  have each : ∀ block ∈ numbers.map blockOf,
      block.length = 8 ∧ IsHex block ∧ lowerCase block = block := by
    intro block member
    obtain ⟨number, _, rfl⟩ := List.mem_map.mp member
    exact ⟨length_blockOf number, isHex_blockOf number, lowerCase_blockOf number⟩
  obtain ⟨valid, blocks⟩ := seed_flatten each
  have whole : (groups (bodyOf wordset wlist)).flatten = bodyOf wordset wlist := by
    rw [groups, Blocks.flatten_chunks, List.take_of_length_le (by omega)]
  refine ⟨numbers, ?_, found, blocks, valid, whole⟩
  have some : groups (bodyOf wordset wlist) ≠ [] := by
    refine List.ne_nil_of_length_pos ?_
    rw [groups, Blocks.length_chunks]
    omega
  generalize groups (bodyOf wordset wlist) = blocks at some found
  cases found with
  | nil => exact absurd rfl some
  | cons one _ =>
    obtain ⟨_, _, _, first, _⟩ := number?_some one
    exact Nat.zero_lt_of_lt (Wordset.lookup_some first).1

theorem Read.seedWords {wordset : Wordset} {wlist : List JsString} {seed : JsString}
    {numbers : List Nat} (read : Read wordset wlist seed numbers) :
    seedWords wordset seed =
      (numbers.map fun number => wordsOf wordset (number % 2 ^ 32)).flatten := by
  rw [Mnemonic.seedWords, List.flatMap_def, read.blocks, List.map_map]
  refine congrArg List.flatten (List.map_congr_left fun number _ => ?_)
  rw [Function.comp_apply, blockNumber_blockOf]

theorem Read.keys_of_encodes32 {wordset : Wordset} {wlist : List JsString} {seed : JsString}
    {numbers : List Nat} (read : Read wordset wlist seed numbers)
    (small : ∀ group ∈ groups (bodyOf wordset wlist), Encodes32 wordset group) :
    (Mnemonic.seedWords wordset seed).map wordset.keyOf =
      (bodyOf wordset wlist).map wordset.keyOf := by
  rw [read.seedWords, ← read.whole, List.map_flatten, List.map_flatten, List.map_map]
  have three : ∀ group ∈ groups (bodyOf wordset wlist), group.length = 3 :=
    fun _ => length_of_mem_groups
  have found := read.found
  generalize groups (bodyOf wordset wlist) = blocks at small three found
  clear read
  induction found with
  | nil => rfl
  | cons one _ inductionHypothesis =>
    obtain ⟨firstSmall, othersSmall⟩ := List.forall_mem_cons.mp small
    obtain ⟨firstThree, othersThree⟩ := List.forall_mem_cons.mp three
    rw [List.map_cons, List.flatten_cons, List.map_cons, List.flatten_cons,
      inductionHypothesis othersSmall othersThree, Function.comp_apply,
      wordsOf_keys_of_lt firstThree one ((encodes32_iff one).mp firstSmall)]

theorem Read.encodes32_of_keys {wordset : Wordset} {wlist : List JsString} {seed : JsString}
    {numbers : List Nat} (read : Read wordset wlist seed numbers)
    (distinct : (wordset.words.map wordset.keyOf).Nodup)
    (same : (Mnemonic.seedWords wordset seed).map wordset.keyOf =
      (bodyOf wordset wlist).map wordset.keyOf) :
    ∀ group ∈ groups (bodyOf wordset wlist), Encodes32 wordset group := by
  rw [read.seedWords, ← read.whole, List.map_flatten, List.map_flatten, List.map_map] at same
  have three : ∀ group ∈ groups (bodyOf wordset wlist), group.length = 3 :=
    fun _ => length_of_mem_groups
  have found := read.found
  generalize groups (bodyOf wordset wlist) = blocks at same three found ⊢
  clear read
  induction found with
  | nil => exact List.forall_mem_nil _
  | cons one _ inductionHypothesis =>
    obtain ⟨firstThree, othersThree⟩ := List.forall_mem_cons.mp three
    rw [List.map_cons, List.flatten_cons, List.map_cons, List.flatten_cons,
      Function.comp_apply] at same
    obtain ⟨first, others⟩ := List.append_inj same (by
      rw [List.length_map, List.length_map, firstThree]
      rfl)
    exact List.forall_mem_cons.mpr
      ⟨(encodes32_iff one).mpr (lt_of_wordsOf_keys distinct firstThree one first),
        inductionHypothesis others othersThree⟩

/-- The checksum is computed from what is compared of the words. -/
theorem mnGetChecksumIndex_congr {wordset : Wordset} (checked : wordset.prefixLen > 0)
    {first second : List JsString}
    (same : first.map wordset.keyOf = second.map wordset.keyOf) :
    mnGetChecksumIndex first wordset.prefixLen = mnGetChecksumIndex second wordset.prefixLen := by
  have trimmed (words : List JsString) : words.flatMap (fun word => word.take wordset.prefixLen) =
      (words.map wordset.keyOf).flatten := by
    rw [List.flatMap_def]
    refine congrArg List.flatten (List.map_congr_left fun word _ => ?_)
    rw [Wordset.keyOf, if_neg (Nat.ne_of_gt checked)]
  have length : first.length = second.length := by
    rw [← List.length_map wordset.keyOf, same, List.length_map]
  unfold mnGetChecksumIndex
  rw [trimmed, trimmed, same, length]

theorem keyOf_getD {wordset : Wordset} {first second : List JsString}
    (same : first.map wordset.keyOf = second.map wordset.keyOf) (index : Nat) :
    wordset.keyOf (first.getD index []) = wordset.keyOf (second.getD index []) := by
  rw [← List.getD_map first [] wordset.keyOf, same, List.getD_map second [] wordset.keyOf]

/-- The phrase of the seed has the words of the phrase that was read just when their words
without the checksum are the same. -/
theorem reencoded_iff_keys {toLowerCase : JsString → JsString} {wordset : Wordset}
    (spaceless : ∀ word ∈ wordset.words, 32 ∉ word) {str seed : JsString} {numbers : List Nat}
    (decodes : Decodes wordset (phraseWords toLowerCase str) seed)
    (read : Read wordset (phraseWords toLowerCase str) seed numbers) :
    Reencoded toLowerCase wordset str seed ↔
      (seedWords wordset seed).map wordset.keyOf =
        (bodyOf wordset (phraseWords toLowerCase str)).map wordset.keyOf := by
  have some : seedWords wordset seed ≠ [] := by
    intro none
    have words := length_seedWords wordset seed
    have blocks : seed.length / 8 = numbers.length := by
      rw [← Blocks.length_chunks 8 (seed.length / 8) seed, ← seedBlocks, read.blocks,
        List.length_map]
    have count := read.found.length_eq
    rw [groups, Blocks.length_chunks] at count
    have body := decodes.body
    rw [none, List.length_nil] at words
    omega
  have split {phrase : List JsString}
      (done : withChecksum wordset (seedWords wordset seed) = .ok phrase) :
      ([32].intercalate phrase).splitOn 32 = phrase := by
    refine List.splitOn_intercalate 32 (fun word member => spaceless word ?_) ?_
    · exact mem_seedWords read.nonempty (mem_withChecksum some done member)
    · rintro rfl
      rcases withChecksum_ok done with ⟨_, _, _, none⟩ | ⟨_, none⟩
      · exact absurd none (List.append_ne_nil_of_right_ne_nil _ (List.cons_ne_nil _ _)).symm
      · exact some none.symm
  unfold Reencoded
  rw [mnEncode_eq read.nonempty read.valid]
  generalize phraseWords toLowerCase str = wlist at *
  have last : wlist.dropLast ++ [wlist.getLastD []] = wlist := by
    have nonempty : wlist ≠ [] :=
      List.ne_nil_of_length_pos (Nat.lt_of_lt_of_le (by decide) decodes.long)
    rw [List.getLastD_eq_getLast?, List.getLast?_eq_some_getLast nonempty, Option.getD_some,
      List.dropLast_concat_getLast]
  constructor
  · rintro ⟨phrase, encoded, same⟩
    cases done : withChecksum wordset (seedWords wordset seed) with
    | error failure =>
      rw [done] at encoded
      cases encoded
    | ok words =>
      rw [done] at encoded
      cases encoded
      rw [split done] at same
      rcases withChecksum_ok done with ⟨checked, index, _, rfl⟩ | ⟨unchecked, rfl⟩
      · rw [← last, List.map_append, List.map_append] at same
        rw [bodyOf, if_pos checked]
        exact List.append_inj_left' same rfl
      · rwa [bodyOf, if_neg unchecked]
  · intro same
    by_cases checked : wordset.prefixLen > 0
    · obtain ⟨index, sum, verified⟩ := decodes.checksum checked
      have done : withChecksum wordset (seedWords wordset seed) =
          .ok (seedWords wordset seed ++ [(seedWords wordset seed).getD index []]) := by
        rw [withChecksum, if_pos checked, mnGetChecksumIndex_congr checked same, sum]
        rfl
      rw [done]
      refine ⟨_, rfl, ?_⟩
      rw [split done, List.map_append, same, List.map_singleton, keyOf_getD same]
      have key : wordset.keyOf ((bodyOf wordset wlist).getD index []) =
          wordset.keyOf (wlist.getLastD []) := by
        unfold Wordset.keyOf
        rw [if_neg (Nat.ne_of_gt checked), if_neg (Nat.ne_of_gt checked), verified]
      rw [key]
      conv_rhs => rw [← last]
      rw [List.map_append, bodyOf, if_pos checked]
      rfl
    · have done : withChecksum wordset (seedWords wordset seed) =
          .ok (seedWords wordset seed) := by
        rw [withChecksum, if_neg checked]
        rfl
      rw [done]
      refine ⟨_, rfl, ?_⟩
      rw [split done, same, bodyOf, if_neg checked]

/-- A phrase that is read gives its words again if every group of three words stands where the
words of a number of 32 bits stand; and only then, if no two words of the list are compared
alike. Two such phrases are read as one seed only if their words are the same. -/
theorem reencoded_iff {toLowerCase : JsString → JsString} {wordset : Wordset}
    (spaceless : ∀ word ∈ wordset.words, 32 ∉ word) {str seed : JsString}
    (accepted : mnDecode toLowerCase wordset str = .ok seed) :
    (Encodable toLowerCase wordset str → Reencoded toLowerCase wordset str seed) ∧
    ((wordset.words.map wordset.keyOf).Nodup → Reencoded toLowerCase wordset str seed →
      Encodable toLowerCase wordset str) ∧
    ∀ other, mnDecode toLowerCase wordset other = .ok seed →
      Encodable toLowerCase wordset str → Encodable toLowerCase wordset other →
      (phraseWords toLowerCase other).map wordset.keyOf =
        (phraseWords toLowerCase str).map wordset.keyOf := by
  have written {phrase : JsString} (read : mnDecode toLowerCase wordset phrase = .ok seed)
      (small : Encodable toLowerCase wordset phrase) :
      Reencoded toLowerCase wordset phrase seed := by
    have decodes := mnDecode_eq_ok_iff.mp read
    obtain ⟨numbers, read⟩ := exists_read decodes
    exact (reencoded_iff_keys spaceless decodes read).mpr (read.keys_of_encodes32 small)
  refine ⟨written accepted, fun distinct reencoded => ?_,
    fun other otherRead small otherSmall => ?_⟩
  · have decodes := mnDecode_eq_ok_iff.mp accepted
    obtain ⟨numbers, read⟩ := exists_read decodes
    exact read.encodes32_of_keys distinct
      ((reencoded_iff_keys spaceless decodes read).mp reencoded)
  · obtain ⟨phrase, encoded, same⟩ := written accepted small
    obtain ⟨otherPhrase, otherEncoded, otherSame⟩ := written otherRead otherSmall
    rw [encoded] at otherEncoded
    cases otherEncoded
    rw [← otherSame, same]

/-- A phrase of different words, one with a capital and one with a letter too many. -/
def mixedPhrase : JsString :=
  JsString.ofString "Cgl apwx bpb asl aau chh awy bhz ais aak bxc cba cba"

/-- The words are those that the seed is written with, and all that are are the same. -/
theorem reencoded_iff_letters :
    Encodable lowerCase letterWords mixedPhrase ∧
    ∀ other, mnDecode lowerCase letterWords other =
        .ok (JsString.ofString "0123456789abcdeffedcba9876543210") →
      Encodable lowerCase letterWords other →
      (phraseWords lowerCase other).map letterWords.keyOf =
        (phraseWords lowerCase mixedPhrase).map letterWords.keyOf := by
  have accepted : mnDecode lowerCase letterWords mixedPhrase =
      .ok (JsString.ofString "0123456789abcdeffedcba9876543210") := by
    decide +kernel
  have reencoded : Reencoded lowerCase letterWords mixedPhrase
      (JsString.ofString "0123456789abcdeffedcba9876543210") :=
    ⟨JsString.ofString "cgl apw bpb asl aau chh awy bhz ais aak bxc cba cba", by decide +kernel,
      by decide +kernel⟩
  obtain ⟨-, encodable, unique⟩ := reencoded_iff letterWords_proper.spaceless accepted
  have small := encodable letterWords_proper.distinct reencoded
  exact ⟨small, fun other read otherSmall => unique other read small otherSmall⟩

/-- The last three words but one stand for 1626 ^ 3 - 1, of which eight digits are kept. -/
theorem cut_phrase :
    mnDecode lowerCase letterWords
        (JsString.ofString "aaa aaa aaa aaa aaa aaa aaa aaa aaa ckn ckm ckl ckm") =
      .ok (JsString.ofString "000000000000000000000000a7a73c00") ∧
    mnEncode letterWords (JsString.ofString "000000000000000000000000a7a73c00") =
      .ok (JsString.ofString "aaa aaa aaa aaa aaa aaa aaa aaa aaa brr amp amq amq") := by
  decide +kernel

theorem not_reencoded :
    ¬ ∀ toLowerCase (wordset : Wordset), wordset.Proper toLowerCase → ∀ str seed,
      mnDecode toLowerCase wordset str = .ok seed → Reencoded toLowerCase wordset str seed := by
  intro always
  obtain ⟨phrase, encoded, same⟩ := always lowerCase letterWords letterWords_proper _ _ cut_phrase.1
  rw [cut_phrase.2] at encoded
  cases encoded
  exact absurd same (by decide +kernel)

end Mnemonic

end LightWallet.Frontend
