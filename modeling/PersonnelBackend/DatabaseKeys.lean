import Mathlib.Data.Nat.Log
import PersonnelBackend.DocumentJson
import PersonnelBackend.LexicalCode

/-! Which values can be primary keys. The server turns a key into a string of bytes
(`print_primary`) and refuses a key of another type, one with a null byte and one
whose string is too long. Only the size of the string decides; the string itself is
the subject of `PrimaryKeys`. -/
namespace PersonnelBackend.Database
open Document LexicalCode

/-! ### The text of a number -/

/-- The quotient, rounded to the nearest integer and to the even one of two. -/
def roundQuotient (n d : ℕ) : ℕ :=
  if 2 * (n % d) < d ∨ 2 * (n % d) = d ∧ n / d % 2 = 0 then n / d else n / d + 1

def decimalExponent (n d : ℕ) : ℤ :=
  let e : ℤ := (Nat.log 10 n : ℤ) - Nat.log 10 d
  if n * 10 ^ (-e).toNat < d * 10 ^ e.toNat then e - 1 else e

/-- Twenty significant digits of a positive quotient, and the exponent of the first. -/
def significant (n d : ℕ) : ℕ × ℤ :=
  let e := decimalExponent n d
  let m := roundQuotient (n * 10 ^ (19 - e).toNat) (d * 10 ^ (e - 19).toNat)
  if m = 10 ^ 20 then (10 ^ 19, e + 1) else (m, e)

def digitByte (i : ℕ) : UInt8 := UInt8.ofNat (0x30 + i)

def withPoint (whole fraction : List UInt8) : List UInt8 :=
  if fraction.isEmpty then whole else whole ++ 0x2E :: fraction

def exponentText (e : ℤ) : List UInt8 :=
  0x65 :: (if e < 0 then 0x2D else 0x2B) ::
    (digits 10 (if e.natAbs < 100 then 2 else 3) e.natAbs).map digitByte

/-- What `printf` writes for a positive quotient with the format `%.20g`. -/
def quotientText (n d : ℕ) : List UInt8 :=
  let (m, e) := significant n d
  let ds := ((digits 10 20 m).reverse.dropWhile (· = 0)).reverse.map digitByte
  if e < -4 ∨ 20 ≤ e then withPoint (ds.take 1) (ds.drop 1) ++ exponentText e
  else if e < 0 then withPoint [0x30] (List.replicate (-e - 1).toNat 0x30 ++ ds)
  else
    let size := e.toNat + 1
    withPoint (ds.take size ++ List.replicate (size - ds.length) 0x30) (ds.drop size)

/-- The text of a number in a key, in the format `PR_RECONSTRUCTABLE_DOUBLE`. -/
def reconstructable : Number → List UInt8
  | .infinite negative => (if negative then [0x2D] else []) ++ [0x69, 0x6E, 0x66]
  | .finite value =>
    if value.num = 0 then [0x30]
    else (if value.num < 0 then [0x2D] else []) ++ quotientText value.num.natAbs value.den

/-! ### The size of a key -/

def utf8 (s : String) : List UInt8 := s.toByteArray.data.toList

def maxKeySize : ℕ := 250

def maxPrimaryKeySize : ℕ := 128

inductive KeyError
  | wrongType (value : Json)
  | nullByte (value : String) (offset : ℕ)
  | tooLong (key : Json)
  deriving DecidableEq

mutual
/-- The size of the string once the value has been appended to `out` bytes. -/
def keySize : Json → ℕ → Except KeyError ℕ
  | .bool _, out => .ok (out + 2)
  | .num value, out => .ok (out + 18 + (reconstructable value).length)
  | .str s, out =>
    match (utf8 s).findIdx? (· = 0) with
    | some offset => .error (.nullByte s offset)
    | none => .ok (out + 1 + min (maxKeySize - (out + 1)) (utf8 s).length)
  | .arr items, out => itemsKeySize items (out + 1)
  | .null, _ => .error (.wrongType .null)
  | .obj fields, _ => .error (.wrongType (.obj fields))
/-- The loop of `array_to_str_key`, which stops when the string is long enough. -/
def itemsKeySize : Items → ℕ → Except KeyError ℕ
  | .nil, out => .ok out
  | .cons item rest, out =>
    if out < maxKeySize then
      match keySize item out with
      | .error e => .error e
      | .ok out => itemsKeySize rest (out + 1)
    else .ok out
end

/-- The checks of `print_primary`. -/
def checkPrimary (key : Json) : Except KeyError Unit :=
  match keySize key 0 with
  | .error e => .error e
  | .ok size => if size > maxPrimaryKeySize then .error (.tooLong key) else .ok ()

def isPrimary (key : Json) : Bool := (checkPrimary key).isOk

lemma checkPrimary_of_isPrimary {key : Json} (h : isPrimary key = true) :
    checkPrimary key = .ok () := by
  rw [isPrimary] at h
  cases hc : checkPrimary key with
  | ok u => rfl
  | error e =>
    rw [hc] at h
    cases h

lemma checkPrimary_of_not_isPrimary {key : Json} (h : isPrimary key ≠ true) :
    ∃ e, checkPrimary key = .error e := by
  rw [isPrimary] at h
  cases hc : checkPrimary key with
  | ok u =>
    rw [hc] at h
    exact absurd rfl h
  | error e => exact ⟨e, rfl⟩

end PersonnelBackend.Database
