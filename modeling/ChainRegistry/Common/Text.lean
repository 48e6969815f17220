import Mathlib.Data.List.DropRight

/-! The operations of Rust's `str` and of the `hex` crate that the node uses.
Whitespace is Unicode `White_Space` and case mapping is ASCII only, as in Rust. -/
namespace ChainRegistry.Text
open List Bool

def bytes (s : String) : List UInt8 := s.toByteArray.data.toList

/-- The characters of a text. Those of an ASCII text are its bytes, which is quicker to compute with. -/
def toChars (s : String) : List Char :=
  if (bytes s).all (· < 128) then (bytes s).map fun b => Char.ofNat b.toNat else s.toList

def isWhitespace (c : Char) : Bool :=
  let n := c.toNat
  (9 ≤ n && n ≤ 13) || n == 0x20 || n == 0x85 || n == 0xA0 || n == 0x1680 ||
    (0x2000 ≤ n && n ≤ 0x200A) || n == 0x2028 || n == 0x2029 || n == 0x202F || n == 0x205F || n == 0x3000

def trim (s : String) : String :=
  String.ofList (((toChars s).dropWhile isWhitespace).reverse.dropWhile isWhitespace).reverse

def toAsciiLowercase (s : String) : String := String.ofList ((toChars s).map Char.toLower)

def dropHexMarks : List Char → List Char
  | '0' :: 'x' :: rest => dropHexMarks rest
  | chars => chars

/-- `trim_start_matches("0x")`, which removes the mark as often as it occurs. -/
def trimStartHexMark (s : String) : String := String.ofList (dropHexMarks (toChars s))

def startsWith (s start : String) : Bool := (toChars start).isPrefixOf (toChars s)

/-- `&s[..n]` does not panic: `n` is inside the text and not inside a character. -/
def sliceable (s : String) (n : Nat) : Bool :=
  n ≤ (bytes s).length && !((bytes s)[n]?.any fun b => 0x80 ≤ b && b < 0xC0)

def takeBytes : Nat → List Char → List Char
  | _, [] => []
  | n, c :: rest => if c.utf8Size ≤ n then c :: takeBytes (n - c.utf8Size) rest else []

/-- `&s[..n]`, or nothing when it panics. -/
def slice (s : String) (n : Nat) : Option String :=
  if sliceable s n then some (String.ofList (takeBytes n (toChars s))) else none

def dropMarks (mark : List Char) : Nat → List Char → List Char
  | 0, chars => chars
  | fuel + 1, chars => if mark.isPrefixOf chars then dropMarks mark fuel (chars.drop mark.length) else chars

/-- `trim_start_matches(mark)` for a mark that is not empty: no mark occurs more often
than the text has characters. -/
def trimStartMatches (s mark : String) : String := String.ofList (dropMarks (toChars mark) (toChars s).length (toChars s))

def trimEndSlash (s : String) : String := String.ofList ((toChars s).reverse.dropWhile (· = '/')).reverse

def isEmpty (s : String) : Bool := s == ""

def hexDigit (n : UInt8) : Char := Char.ofNat (if n < 10 then 48 + n.toNat else 87 + n.toNat)

def hexEncode (data : List UInt8) : String :=
  String.ofList (data.flatMap fun b => [hexDigit (b / 16),hexDigit (b % 16)])

def isUnreserved (b : UInt8) : Bool :=
  (48 ≤ b && b ≤ 57) || (65 ≤ b && b ≤ 90) || (97 ≤ b && b ≤ 122) || b == 45 || b == 46 || b == 95 || b == 126

def urlEncode (s : String) : String :=
  String.ofList ((bytes s).flatMap fun b =>
    if isUnreserved b then [Char.ofNat b.toNat] else ['%',(hexDigit (b / 16)).toUpper,(hexDigit (b % 16)).toUpper])

def hexValue (b : UInt8) : Option UInt8 :=
  if 65 ≤ b && b ≤ 70 then some (b - 55)
  else if 97 ≤ b && b ≤ 102 then some (b - 87)
  else if 48 ≤ b && b ≤ 57 then some (b - 48)
  else none

def invalidHex (b : UInt8) (index : Nat) : String :=
  "Invalid character '" ++ (Char.ofNat b.toNat).toString ++ "' at position " ++ toString index

def hexDecodeFrom (index : Nat) : List UInt8 → Except String (List UInt8)
  | high :: low :: rest =>
    match hexValue high, hexValue low with
    | some h, some l => (hexDecodeFrom (index + 2) rest).map (fun tail => (h * 16 + l) :: tail)
    | none, _ => .error (invalidHex high index)
    | some _, none => .error (invalidHex low (index + 1))
  | _ => .ok []

def hexDecode (s : String) : Except String (List UInt8) :=
  if (bytes s).length % 2 = 1 then .error "Odd number of digits" else hexDecodeFrom 0 (bytes s)

/-! What is encoded is read back, in the normal form in which keys are compared. -/

theorem bytes_ofList (chars : List Char) : bytes (String.ofList chars) = chars.flatMap String.utf8EncodeChar := by
  rw [bytes,String.toByteArray_ofList,List.utf8Encode]
  simp

private theorem last_byte {c : Char} (wide : ¬c.val.toNat ≤ 127) :
    UInt8.ofNat (c.val.toNat % 64 + 128) ∈ String.utf8EncodeChar c := by
  unfold String.utf8EncodeChar
  simp only [if_neg wide]
  split_ifs <;> simp

private theorem ascii_byte {c : Char} (ascii : c.val.toNat ≤ 127) :
    ∃ b : UInt8, String.utf8EncodeChar c = [b] ∧ b.toNat = c.val.toNat := by
  refine ⟨UInt8.ofNat c.val.toNat,if_pos ascii,?_⟩
  rw [UInt8.toNat_ofNat',Nat.mod_eq_of_lt (by omega)]

theorem toChars_ofList (chars : List Char) : toChars (String.ofList chars) = chars := by
  rw [toChars,bytes_ofList,String.toList_ofList]
  split_ifs with ascii
  · rw [all_flatMap,all_eq_true] at ascii
    induction chars with
    | nil => rfl
    | cons c chars ih =>
      have small : c.val.toNat ≤ 127 := by
        by_contra wide
        have low := all_eq_true.mp (ascii c mem_cons_self) _ (last_byte wide)
        simp only [decide_eq_true_eq,UInt8.lt_iff_toNat_lt,UInt8.toNat_ofNat',UInt8.reduceToNat] at low
        omega
      obtain ⟨b,code,value⟩ := ascii_byte small
      have read : Char.ofNat b.toNat = c := value ▸ Char.ofNat_toNat c
      rw [flatMap_cons,code,map_append,map_singleton,read,ih fun c inside => ascii c (mem_cons_of_mem _ inside)]
      rfl
  · rfl

theorem toChars_eq (s : String) : toChars s = s.toList := by
  rw [← String.ofList_toList (s := s),toChars_ofList,String.toList_ofList]

private theorem hexDigit_spec {d : UInt8} (small : d < 16) :
    (String.utf8EncodeChar (hexDigit d)).map hexValue = [some d] ∧ (hexDigit d).toLower = hexDigit d ∧
      hexDigit d ≠ 'x' ∧ (hexDigit d).isAlphanum := by
  have all : ∀ n : Fin 16, (String.utf8EncodeChar (hexDigit (.ofNat n))).map hexValue = [some (.ofNat n)] ∧
      (hexDigit (.ofNat n)).toLower = hexDigit (.ofNat n) ∧ hexDigit (.ofNat n) ≠ 'x' ∧
      (hexDigit (.ofNat n)).isAlphanum := by
    decide
  have digit := all ⟨d.toNat,small⟩
  rwa [UInt8.ofNat_toNat] at digit

private theorem nibbles (b : UInt8) : b / 16 < 16 ∧ b % 16 < 16 ∧ b / 16 * 16 + b % 16 = b := by
  have bound := b.toNat_lt
  refine ⟨?_,?_,UInt8.toNat.inj ?_⟩
  · simp only [UInt8.lt_iff_toNat_lt,UInt8.toNat_div,UInt8.reduceToNat]
    omega
  · simp only [UInt8.lt_iff_toNat_lt,UInt8.toNat_mod,UInt8.reduceToNat]
    omega
  · simp only [UInt8.toNat_add,UInt8.toNat_mul,UInt8.toNat_div,UInt8.toNat_mod,UInt8.reduceToNat]
    omega

variable (data : List UInt8) (s : String) {decoded : List UInt8} {chars : List Char}

private theorem bytes_hexEncode :
    (bytes (hexEncode data)).length = 2 * data.length ∧ ∀ index, hexDecodeFrom index (bytes (hexEncode data)) = .ok data := by
  rw [hexEncode,bytes_ofList]
  induction data with
  | nil => exact ⟨rfl,fun _ => rfl⟩
  | cons b data ih =>
    obtain ⟨high,low,whole⟩ := nibbles b
    obtain ⟨first,encodes,reads⟩ := map_eq_singleton_iff.mp (hexDigit_spec high).1
    obtain ⟨second,encodes',reads'⟩ := map_eq_singleton_iff.mp (hexDigit_spec low).1
    simp only [flatMap_cons,cons_append,nil_append,encodes,encodes',length_cons]
    refine ⟨by omega,fun index => ?_⟩
    rw [hexDecodeFrom,reads,reads']
    simp [ih.2,whole,Except.map]

theorem hexDecode_hexEncode : hexDecode (hexEncode data) = .ok data := by
  obtain ⟨size,reads⟩ := bytes_hexEncode data
  rw [hexDecode,if_neg (by omega),reads]

theorem hexEncode_digits : ∀ c ∈ (hexEncode data).toList, c.toLower = c ∧ c ≠ 'x' ∧ c.isAlphanum := by
  rw [hexEncode,String.toList_ofList]
  intro c inside
  obtain ⟨b,_,digit⟩ := mem_flatMap.mp inside
  obtain ⟨high,low,_⟩ := nibbles b
  rcases mem_cons.mp digit with rfl | last
  · exact (hexDigit_spec high).2
  · rw [mem_singleton.mp last]
    exact (hexDigit_spec low).2

theorem trimStartHexMark_hexEncode : trimStartHexMark (hexEncode data) = hexEncode data := by
  rw [trimStartHexMark,hexEncode,toChars_ofList]
  cases data with
  | nil => rfl
  | cons b data =>
    have unmarked := (hexDigit_spec (nibbles b).2.1).2.2.1
    simp only [flatMap_cons,cons_append,nil_append]
    rw [dropHexMarks]
    intro rest marked
    exact unmarked (List.cons.inj (List.cons.inj marked).2).1

theorem toAsciiLowercase_small {s : String} (small : ∀ c ∈ s.toList, c.toLower = c) : toAsciiLowercase s = s := by
  rw [toAsciiLowercase,toChars_eq,map_congr_left small,map_id',String.ofList_toList]

theorem toAsciiLowercase_hexEncode : toAsciiLowercase (hexEncode data) = hexEncode data :=
  toAsciiLowercase_small fun c inside => (hexEncode_digits data c inside).1

private theorem isAlphanum_iff (c : Char) : c.isAlphanum ↔
    (65 ≤ c.toNat ∧ c.toNat ≤ 90 ∨ 97 ≤ c.toNat ∧ c.toNat ≤ 122) ∨ 48 ≤ c.toNat ∧ c.toNat ≤ 57 := by
  delta Char.isAlphanum Char.isAlpha Char.isUpper Char.isLower Char.isDigit
  simp only [or_eq_true,and_eq_true,decide_eq_true_eq,ge_iff_le,UInt32.le_iff_toNat_le]
  have digits : '0'.val.toNat = 48 ∧ '9'.val.toNat = 57 := ⟨rfl,rfl⟩
  have capitals : 'A'.val.toNat = 65 ∧ 'Z'.val.toNat = 90 := ⟨rfl,rfl⟩
  have smalls : 'a'.val.toNat = 97 ∧ 'z'.val.toNat = 122 := ⟨rfl,rfl⟩
  change _ ↔ (65 ≤ c.val.toNat ∧ c.val.toNat ≤ 90 ∨ 97 ≤ c.val.toNat ∧ c.val.toNat ≤ 122) ∨
    48 ≤ c.val.toNat ∧ c.val.toNat ≤ 57
  omega

private theorem not_whitespace {c : Char} (letter : c.isAlphanum) : isWhitespace c = false := by
  have range := (isAlphanum_iff c).mp letter
  unfold isWhitespace
  simp only [or_eq_false_iff,and_eq_false_iff,decide_eq_false_iff_not,beq_eq_false_iff_ne]
  omega

private theorem dropWhile_whitespace (letters : ∀ c ∈ chars, c.isAlphanum) : chars.dropWhile isWhitespace = chars := by
  cases chars with
  | nil => rfl
  | cons c chars =>
    apply dropWhile_cons_of_neg
    rw [not_whitespace (letters c mem_cons_self)]
    exact Bool.false_ne_true

theorem trim_alphanum {s : String} (letters : ∀ c ∈ s.toList, c.isAlphanum) : trim s = s := by
  have reversed : ∀ c ∈ s.toList.reverse, c.isAlphanum := fun c inside => letters c (mem_reverse.mp inside)
  rw [trim,toChars_eq,dropWhile_whitespace letters,dropWhile_whitespace reversed,reverse_reverse,String.ofList_toList]

private theorem trim_eq : trim s = String.ofList (((toChars s).dropWhile isWhitespace).rdropWhile isWhitespace) := rfl

theorem trim_trim : trim (trim s) = trim s := by
  rw [trim_eq (trim s),trim_eq s,toChars_ofList]
  set front := (toChars s).dropWhile isWhitespace with trimmed
  -- the end that is cut off leaves the first character in its place
  have kept : (front.rdropWhile isWhitespace).dropWhile isWhitespace = front.rdropWhile isWhitespace := by
    obtain ⟨tail,whole⟩ := rdropWhile_prefix isWhitespace front
    cases shape : front.rdropWhile isWhitespace with
    | nil => rfl
    | cons c rest =>
      have front_eq : front = c :: (rest ++ tail) := by rw [← whole,shape,cons_append]
      have stable : front.dropWhile isWhitespace = front := dropWhile_idempotent _ _
      refine dropWhile_cons_of_neg fun white => ?_
      rw [front_eq,dropWhile_cons_of_pos white] at stable
      have shorter := (dropWhile_suffix (l := rest ++ tail) isWhitespace).length_le
      rw [stable,length_cons] at shorter
      omega
  rw [kept,rdropWhile_idempotent]

private theorem hexDecodeFrom_digits {data : List UInt8} {index : Nat} (even : data.length % 2 = 0)
    (ok : hexDecodeFrom index data = .ok decoded) : ∀ b ∈ data, hexValue b ≠ none := by
  fun_induction hexDecodeFrom index data generalizing decoded with
  | case1 index high low rest h l first second ih =>
    cases tail : hexDecodeFrom (index + 2) rest with
    | error e => simp [tail,Except.map] at ok
    | ok decoded =>
      have digits := ih (by simp at even; omega) tail
      simpa [first,second] using digits
  | case2 => cases ok
  | case3 => cases ok
  | case4 data index short =>
    match data with
    | [] => simp
    | [_] => simp at even
    | high :: low :: rest => exact absurd rfl (short high low rest)

private theorem hexValue_range {b : UInt8} (digit : hexValue b ≠ none) :
    48 ≤ b.toNat ∧ b.toNat ≤ 57 ∨ 65 ≤ b.toNat ∧ b.toNat ≤ 70 ∨ 97 ≤ b.toNat ∧ b.toNat ≤ 102 := by
  unfold hexValue at digit
  simp only [and_eq_true,decide_eq_true_eq,UInt8.le_iff_toNat_le,UInt8.reduceToNat] at digit
  split_ifs at digit
  · omega
  · omega
  · omega
  · exact absurd rfl digit

private theorem alphanum_of_digits {c : Char} (digits : ∀ b ∈ String.utf8EncodeChar c, hexValue b ≠ none) :
    c.isAlphanum := by
  by_cases ascii : c.val.toNat ≤ 127
  · obtain ⟨b,code,value⟩ := ascii_byte ascii
    have range := hexValue_range (digits b (code ▸ mem_singleton_self b))
    rw [value] at range
    rw [isAlphanum_iff]
    change (65 ≤ c.val.toNat ∧ c.val.toNat ≤ 90 ∨ 97 ≤ c.val.toNat ∧ c.val.toNat ≤ 122) ∨
      48 ≤ c.val.toNat ∧ c.val.toNat ≤ 57
    omega
  · -- any other character ends with a byte that is no digit
    have range := hexValue_range (digits _ (last_byte ascii))
    rw [UInt8.toNat_ofNat',Nat.mod_eq_of_lt (by omega)] at range
    omega

theorem hexDecode_alphanum {s : String} (ok : hexDecode s = .ok decoded) : ∀ c ∈ s.toList, c.isAlphanum := by
  unfold hexDecode at ok
  split_ifs at ok with odd
  have digits := hexDecodeFrom_digits (by omega) ok
  rw [← String.ofList_toList (s := s),bytes_ofList] at digits
  intro c inside
  refine alphanum_of_digits fun b among => digits b ?_
  exact mem_flatMap.mpr ⟨c,inside,among⟩

private theorem toLower_cases (c : Char) : c.toLower = c ∨ (65 ≤ c.toNat ∧ c.toNat ≤ 90 ∧ c.toLower.toNat = c.toNat + 32) := by
  unfold Char.toLower
  split
  · rename_i capital
    have low : 65 ≤ c.val.toNat := capital.1
    have high : c.val.toNat ≤ 90 := capital.2
    refine .inr ⟨low,high,?_⟩
    change (c.val + 32).toNat = c.val.toNat + 32
    have shift : (32 : UInt32).toNat = 32 := rfl
    rw [UInt32.toNat_add,shift]
    omega
  · exact .inl rfl

theorem toLower_toLower (c : Char) : c.toLower.toLower = c.toLower := by
  rcases toLower_cases c.toLower with same | ⟨low,high,_⟩
  · exact same
  · rcases toLower_cases c with same | ⟨_,_,shifted⟩
    · rw [same]; exact same
    · omega

theorem toAsciiLowercase_twice : toAsciiLowercase (toAsciiLowercase s) = toAsciiLowercase s := by
  have lower : Char.toLower ∘ Char.toLower = Char.toLower := funext toLower_toLower
  rw [toAsciiLowercase,toAsciiLowercase,toChars_ofList,map_map,lower]

private theorem isWhitespace_toLower (c : Char) : isWhitespace c.toLower = isWhitespace c := by
  rcases toLower_cases c with same | ⟨low,high,shifted⟩
  · rw [same]
  · unfold isWhitespace
    rw [shifted]
    grind

theorem trim_toAsciiLowercase : trim (toAsciiLowercase s) = toAsciiLowercase (trim s) := by
  have white : isWhitespace ∘ Char.toLower = isWhitespace := funext isWhitespace_toLower
  rw [trim,trim,toAsciiLowercase,toAsciiLowercase,toChars_ofList,toChars_ofList,dropWhile_map,white,
    ← map_reverse,dropWhile_map,white,map_reverse]

theorem dropHexMarks_ne (chars rest : List Char) : dropHexMarks chars ≠ '0' :: 'x' :: rest := by
  fun_induction dropHexMarks chars with
  | case1 tail ih => exact ih
  | case2 chars unmarked => exact fun same => unmarked rest same

theorem dropHexMarks_lower (unmarked : ∀ rest, chars ≠ '0' :: 'x' :: rest)
    (capital : ∀ rest, chars ≠ '0' :: 'X' :: rest) : dropHexMarks (chars.map Char.toLower) = chars.map Char.toLower := by
  rw [dropHexMarks]
  intro rest same
  match chars with
  | [] => simp at same
  | [_] => simp at same
  | zero :: mark :: tail =>
    simp only [map_cons,List.cons.injEq] at same
    obtain ⟨first,second,_⟩ := same
    have digit : zero = '0' := by
      rcases toLower_cases zero with equal | ⟨low,high,shifted⟩
      · exact equal.symm.trans first
      · rw [first] at shifted
        have code : '0'.toNat = 48 := rfl
        omega
    rcases toLower_cases mark with equal | ⟨low,high,shifted⟩
    · exact unmarked tail (by rw [digit,equal.symm.trans second])
    · rw [second] at shifted
      have code : 'x'.toNat = 120 := rfl
      have letter : mark = 'X' := by
        apply Char.ext
        apply UInt32.toNat.inj
        change mark.toNat = 88
        omega
      exact capital tail (by rw [digit,letter])

theorem hexDecode_marked (rest : List Char) : ∃ e, hexDecode (String.ofList ('0' :: 'x' :: rest)) = .error e := by
  have zero : String.utf8EncodeChar '0' = [48] := by decide
  have mark : String.utf8EncodeChar 'x' = [120] := by decide
  unfold hexDecode
  split_ifs
  · exact ⟨_,rfl⟩
  · rw [bytes_ofList,flatMap_cons,flatMap_cons,zero,mark]
    exact ⟨_,rfl⟩

end ChainRegistry.Text
