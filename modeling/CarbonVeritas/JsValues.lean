/-
# JavaScript values

The values that a decoded payload is made of, with the operators that read them: property
access, `??`, truth, `typeof v === 'object'`, and the conversions `Number(..)` and
`String(..)`.

What an engine prints for a double that is not a small integer, and how it decodes bytes,
is left to `JsEngine`.
-/
import CarbonVeritas.JsNumbers

inductive JsValue where
  | undefined
  | null
  | bool (b : Bool)
  | number (x : JsNumber)
  | bigint (z : ℤ)
  | string (s : String)
  /-- a `Buffer` -/
  | buffer (bytes : List UInt8)
  | array (items : List JsValue)
  /-- a plain object -/
  | object (fields : List (String × JsValue))

/-- What depends on the engine. -/
structure JsEngine where
  /-- the text of a finite number that is no integer of at most `2^53` -/
  printDouble : ℚ → String
  /-- `buffer.toString()` -/
  decodeUtf8 : List UInt8 → String

namespace JsValue

/-! ## Operators -/

/-- A property that only plain objects have. -/
def get : JsValue → String → JsValue
  | .object fields, name => (fields.lookup name).getD .undefined
  | _, _ => .undefined

/-- `v ?? w` -/
def orElse : JsValue → JsValue → JsValue
  | .undefined, w => w
  | .null, w => w
  | v, _ => v

/-- `v.a ?? v.b ?? ..`, for the names in order. -/
def getFirst (v : JsValue) (names : List String) : JsValue :=
  names.foldr (fun name rest => (v.get name).orElse rest) .undefined

def truthy : JsValue → Bool
  | .undefined => false
  | .null => false
  | .bool b => b
  | .number .nan => false
  | .number (.infinity _) => true
  | .number (.finite q) => q ≠ 0
  | .bigint z => z ≠ 0
  | .string s => s ≠ ""
  | _ => true

/-- `v && typeof v === 'object'` -/
def isObject : JsValue → Bool
  | .buffer _ => true
  | .array _ => true
  | .object _ => true
  | _ => false

/-! ## Conversions -/

section Conversions

variable (engine : JsEngine)

def numberText : JsNumber → String
  | .nan => "NaN"
  | .infinity negative => if negative then "-Infinity" else "Infinity"
  | .finite q => if q.den = 1 ∧ q.num.natAbs ≤ 2 ^ 53 then toString q.num else engine.printDouble q

mutual

/-- `String(v)` -/
def text : JsValue → String
  | .undefined => "undefined"
  | .null => "null"
  | .bool b => if b then "true" else "false"
  | .number x => numberText engine x
  | .bigint z => toString z
  | .string s => s
  | .buffer bytes => engine.decodeUtf8 bytes
  | .array items => ",".intercalate (itemTexts items)
  | .object _ => "[object Object]"

/-- The texts of the items of an array, where `undefined` and `null` leave no text. -/
def itemTexts : List JsValue → List String
  | [] => []
  | .undefined :: items => "" :: itemTexts items
  | .null :: items => "" :: itemTexts items
  | v :: items => text v :: itemTexts items

end

/-- `Number(v)` -/
def toNumber : JsValue → JsNumber
  | .undefined => .nan
  | .null => .finite 0
  | .bool b => .finite (if b then 1 else 0)
  | .number x => x
  | .bigint z => .ofBigInt z
  | .string s => .ofString s.toList
  | v => .ofString (v.text engine).toList

end Conversions

end JsValue
