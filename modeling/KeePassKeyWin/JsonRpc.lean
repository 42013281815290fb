import KeePassKeyWin.ByteStrings
import KeePassKeyWin.OutcomeRules

set_option autoImplicit false

/-!
# JSON tokens and the JSON-RPC envelope

The tokens a request carries, the conversions the handlers ask of them, the
exceptions of the plugin and the error codes a client sees. Strings are
sequences of Unicode scalar values.
-/
namespace KeePassKeyWin.JsonRpc
open ByteStrings OutcomeRules

/-- `RpcException`, `CborReaderException`, `FormatException`, and every exception
that no handler tells apart. -/
inductive Exn where
  | rpc (code : ℤ) (message : String)
  | cborReader (message : String)
  | format (message : String)
  | other (message : String)
  deriving DecidableEq, Repr

def Exn.message : Exn → String
  | .rpc _ m | .cborReader m | .format m | .other m => m

namespace RpcErrorCode

def parseError : ℤ := -32700
def invalidRequest : ℤ := -32600
def methodNotFound : ℤ := -32601
def invalidParams : ℤ := -32602
def internalError : ℤ := -32603
def handshakeRequired : ℤ := -32000
def handshakeInvalid : ℤ := -32001
def vaultLocked : ℤ := -32010
def credentialNotFound : ℤ := -32020
def unsupportedAlgorithm : ℤ := -32030
def credentialExcluded : ℤ := -32031
def invalidOption : ℤ := -32041

end RpcErrorCode

def invalidParams (message : String) : Exn := .rpc RpcErrorCode.invalidParams message

/-- A parsed token. A floating-point number or a date enters the handlers only through
the text it converts to and, for a number, through being zero or not. -/
inductive JToken where
  | null
  | boolean (b : Bool)
  | integer (n : ℤ)
  | floating (text : String) (nonzero : Bool)
  | date (text : String)
  | str (s : String)
  | array (items : List JToken)
  | object (fields : List (String × JToken))
  deriving Repr

abbrev JObject := List (String × JToken)

def isInt64 (n : ℤ) : Bool := -2 ^ 63 ≤ n && n < 2 ^ 63

def notConvertible : Exn := .other "Object must implement IConvertible."

/-- `Value<string>()`. -/
def JToken.valueString : JToken → Except Exn (Option String)
  | .null => .ok none
  | .boolean b => .ok (some (if b then "True" else "False"))
  | .integer n => if isInt64 n then .ok (some (toString n)) else .error notConvertible
  | .floating text _ => .ok (some text)
  | .date text => .ok (some text)
  | .str s => .ok (some s)
  | .array _ => .error (.other "Cannot cast Newtonsoft.Json.Linq.JArray to Newtonsoft.Json.Linq.JToken.")
  | .object _ => .error (.other "Cannot cast Newtonsoft.Json.Linq.JObject to Newtonsoft.Json.Linq.JToken.")

def isWhiteSpace (c : Char) : Bool :=
  [0x09, 0x0A, 0x0B, 0x0C, 0x0D, 0x20, 0x85, 0xA0, 0x1680, 0x2000, 0x2001, 0x2002, 0x2003, 0x2004,
    0x2005, 0x2006, 0x2007, 0x2008, 0x2009, 0x200A, 0x2028, 0x2029, 0x202F, 0x205F, 0x3000].contains
    c.toNat

def equalsIgnoreCase (s t : String) : Bool :=
  s.toList.map Char.toLower == t.toList.map Char.toLower

theorem equalsIgnoreCase_refl (s : String) : equalsIgnoreCase s s = true := by
  simp [equalsIgnoreCase]

/-- `bool.Parse`: case-insensitive, with white space and NUL trimmed from both ends. -/
def parseBool (s : String) : Option Bool :=
  let trimmed := fun cs : List Char => cs.dropWhile fun c => isWhiteSpace c || c.toNat == 0
  let core := String.ofList (trimmed (trimmed s.toList).reverse).reverse
  if equalsIgnoreCase core "true" then some true
  else if equalsIgnoreCase core "false" then some false
  else none

/-- `Value<bool>()`. -/
def JToken.valueBool : JToken → Except Exn Bool
  | .null => .error (.other "Null object cannot be converted to a value type.")
  | .boolean b => .ok b
  | .integer n => if isInt64 n then .ok (n != 0) else .error notConvertible
  | .floating _ nonzero => .ok nonzero
  | .date _ => .error (.other "Invalid cast from 'DateTime' to 'Boolean'.")
  | .str s =>
    match parseBool s with
    | some b => .ok b
    | none => .error (.format "String was not recognized as a valid Boolean.")
  | .array _ => .error (.other "Cannot cast Newtonsoft.Json.Linq.JArray to Newtonsoft.Json.Linq.JToken.")
  | .object _ => .error (.other "Cannot cast Newtonsoft.Json.Linq.JObject to Newtonsoft.Json.Linq.JToken.")

/-- `obj[key]?.Value<string>()`. -/
def stringField (obj : JObject) (key : String) : Except Exn (Option String) :=
  match obj.lookup key with
  | none => .ok none
  | some token => token.valueString

/-- `obj[key]?.Value<bool>() ?? false`. -/
def boolField (obj : JObject) (key : String) : Except Exn Bool :=
  match obj.lookup key with
  | none => .ok false
  | some token => token.valueBool

def isNullOrEmpty (s : Option String) : Bool := s.getD "" == ""

/-- What `IsNullOrEmpty` leaves. -/
def nonEmpty (s : Option String) : Option String := s.filter (· != "")

theorem nonEmpty_eq_some {s : Option String} {t : String} :
    nonEmpty s = some t ↔ s = some t ∧ t ≠ "" := by
  simp [nonEmpty, Option.filter_eq_some_iff]

structure JsonRpcRequest where
  id : Option JToken
  method : String
  params : Option JToken

/-- A response carries a result or an error, never both. -/
structure JsonRpcResponse where
  id : Option JToken
  outcome : Except (ℤ × String) JToken

def JsonRpcResponse.succeeded (r : JsonRpcResponse) : Bool :=
  match r.outcome with
  | .ok _ => true
  | .error _ => false

structure ConnectionContext where
  handshakeComplete : Bool
  clientPkgFamily : String

def ConnectionContext.fresh : ConnectionContext := ⟨false, ""⟩

def requireObject (token : Option JToken) (method : String) : Except Exn JObject :=
  match token with
  | some (.object fields) => .ok fields
  | _ => .error (invalidParams s!"{method}: params must be a JSON object.")

def requireString (obj : JObject) (key : String) : Except Exn String := do
  match nonEmpty (← stringField obj key) with
  | some value => return value
  | none => throw (invalidParams s!"Missing or empty required parameter: {key}")

theorem requireObject_ok {token : Option JToken} {method : String} {obj : JObject} :
    requireObject token method = .ok obj ↔ token = some (.object obj) := by
  unfold requireObject
  split
  · simp
  · rename_i h
    simp only [reduceCtorEq, false_iff]
    exact fun he => h _ he

theorem requireString_ok {obj : JObject} {key value : String} :
    requireString obj key = .ok value ↔
      stringField obj key = .ok (some value) ∧ value ≠ "" := by
  unfold requireString
  constructor
  · intro h
    obtain ⟨field, hfield, h⟩ := except_bind_ok.mp h
    cases hne : nonEmpty field with
    | none => simp [hne, except_throw_ok] at h
    | some v =>
      rw [hne] at h
      obtain rfl := except_pure_ok.mp h
      obtain ⟨rfl, ne⟩ := nonEmpty_eq_some.mp hne
      exact ⟨hfield, ne⟩
  · rintro ⟨hfield, ne⟩
    simp only [hfield, nonEmpty_eq_some.mpr ⟨rfl, ne⟩, bind, Except.bind]
    rfl

end KeePassKeyWin.JsonRpc
