import Usd8Core.Lib.ByteWords

/-!
# JSON values and the texts in them

A parsed JSON value with the accessors of a document reader, and the texts that
such documents keep their quantities and hashes in.
-/

set_option autoImplicit false

namespace Usd8Core.Lib.Json

open Usd8Core.Lib.ByteWords

/-- A parsed JSON value; of a number only its readings as `u64` and `i64` are used. -/
inductive JsonValue where
  | null
  | bool (value : Bool)
  | number (asU64 : Option Nat) (asI64 : Option Int)
  | string (value : String)
  | array (items : List JsonValue)
  | object (fields : List (String × JsonValue))

instance : Inhabited JsonValue := ⟨.null⟩

namespace JsonValue

def get (value : JsonValue) (name : String) : Option JsonValue :=
  match value with
  | .object fields => fields.lookup name
  | _ => none

/-- `value[name]`, which is null where there is no such field. -/
def index (value : JsonValue) (name : String) : JsonValue :=
  (value.get name).getD .null

def asBool : JsonValue → Option Bool
  | .bool value => some value
  | _ => none

def asString : JsonValue → Option String
  | .string value => some value
  | _ => none

def asU64 : JsonValue → Option Nat
  | .number value _ => value
  | _ => none

def asI64 : JsonValue → Option Int
  | .number _ value => value
  | _ => none

def asArray : JsonValue → Option (List JsonValue)
  | .array items => some items
  | _ => none

def asObject : JsonValue → Option (List (String × JsonValue))
  | .object fields => some fields
  | _ => none

def isNull : JsonValue → Bool
  | .null => true
  | _ => false

def isObject : JsonValue → Bool
  | .object _ => true
  | _ => false

def getString (value : JsonValue) (name : String) : Option String :=
  (value.get name).bind asString

end JsonValue

/-! ## Texts -/

def toAsciiLowercase (text : List Char) : String := String.ofList (text.map Char.toLower)

/-- Whether the characters occur in a row. -/
def containsText (needle : List Char) (text : List Char) : Bool :=
  text.tails.any needle.isPrefixOf

/-- The number that hexadecimal digits spell. -/
def hexNumber (digits : List Char) : Option Nat :=
  digits.foldlM (fun value digit => (hexValue digit).map (16 * value + ·)) 0

/-- `u64::from_str_radix(text, 16)`, which takes a plus sign. -/
def u64FromHex (text : List Char) : Option Nat :=
  let digits := if text.head? = some '+' then text.tail else text
  if digits.isEmpty then none else (hexNumber digits).filter (· < 2 ^ 64)

/-- `format!("0x{value:x}")` -/
def hexQuantityText (value : Nat) : String :=
  String.ofList ('0' :: 'x' :: Nat.toDigits 16 value)

/-- A text that writes a quantity in hexadecimal digits of either case. -/
def WritesQuantity (text : String) (value : Nat) : Prop :=
  ∃ digits, strip0x text = some digits ∧ hexNumber digits = some value

theorem u64FromHex_of_hexNumber {digits : List Char} {value read : Nat}
    (spelled : hexNumber digits = some value) (parsed : u64FromHex digits = some read) :
    read = value := by
  have noSign : digits.head? ≠ some '+' := by
    cases digits with
    | nil => simp
    | cons digit rest =>
        intro isSign
        simp only [List.head?_cons, Option.some.injEq] at isSign
        subst isSign
        have notDigit : hexValue '+' = none := by decide
        simp [hexNumber, notDigit] at spelled
  simp only [u64FromHex, if_neg noSign, spelled] at parsed
  split at parsed
  · cases parsed
  · have kept := (Option.filter_eq_some_iff.mp parsed).1
    exact (Option.some.inj kept).symm

theorem hexNumber_snoc (digits : List Char) (digit : Char) :
    hexNumber (digits ++ [digit]) =
      (hexNumber digits).bind fun value => (hexValue digit).map (16 * value + ·) := by
  simp only [hexNumber, List.foldlM_append, List.foldlM_cons, List.foldlM_nil, bind_pure]
  rfl

theorem hexValue_digitChar : ∀ value < 16, hexValue (Nat.digitChar value) = some value := by
  decide

theorem hexNumber_toDigits (value : Nat) : hexNumber (Nat.toDigits 16 value) = some value := by
  induction value using Nat.strong_induction_on with
  | _ value ih =>
      rcases Nat.lt_or_ge value 16 with small | large
      · rw [Nat.toDigits_of_lt_base small, ← List.nil_append [_], hexNumber_snoc]
        simp [hexNumber, hexValue_digitChar value small]
      · have quotient := ih (value / 16) (Nat.div_lt_self (by omega) (by omega))
        have last := hexValue_digitChar (value % 16) (Nat.mod_lt _ (by omega))
        rw [Nat.toDigits_of_base_le (by omega) large, hexNumber_snoc, quotient]
        simp [last, Nat.div_add_mod]

theorem writesQuantity_hexQuantityText (value : Nat) :
    WritesQuantity (hexQuantityText value) value :=
  ⟨Nat.toDigits 16 value, by simp [strip0x, hexQuantityText], hexNumber_toDigits value⟩

end Usd8Core.Lib.Json
