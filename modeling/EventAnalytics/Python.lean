/-! What the modelled code takes from Python: JSON values, exceptions, and the
standard-library functions that it calls by name. -/
namespace EventAnalytics

/-- A UUID is its 128-bit integer. -/
abbrev UUID := BitVec 128

/-- A finite float is a decimal `mantissa * 10 ^ exponent`. -/
inductive PyFloat
  | finite (mantissa exponent : Int)
  | inf (negative : Bool)
  | nan
  deriving DecidableEq, Repr

inductive Json
  | null
  | bool (b : Bool)
  | int (n : Int)
  | float (f : PyFloat)
  | str (s : String)
  | arr (items : List Json)
  | obj (fields : List (String × Json))

abbrev Dict := List (String × Json)

/-- `d.get(key)`, with `None` and a missing key both read as `null`. -/
def Dict.get (d : Dict) (key : String) : Json :=
  (d.lookup key).getD .null

def Json.truthy : Json → Bool
  | .null => false
  | .bool b => b
  | .int n => n ≠ 0
  | .float (.finite mantissa _) => mantissa ≠ 0
  | .float _ => true
  | .str s => s ≠ ""
  | .arr items => !items.isEmpty
  | .obj fields => !fields.isEmpty

/-- A `datetime`: microseconds on its own clock, and its UTC offset in seconds
when it is aware. -/
structure Datetime where
  micros : Int
  utcOffset : Option Int
  deriving DecidableEq, Repr

inductive Exn
  | attributeError
  | typeError
  | valueError
  | keyError
  | jsonDecodeError
  | recursionError
  | overflowError
  | connectionError
  | responseError
  | dataError
  | dbApiError
  | noResultFound
  | appError (code message : String) (statusCode : Nat)
  deriving DecidableEq, Repr

/-- `type(exc).__name__`. -/
def Exn.typeName : Exn → String
  | attributeError => "AttributeError"
  | typeError => "TypeError"
  | valueError => "ValueError"
  | keyError => "KeyError"
  | jsonDecodeError => "JSONDecodeError"
  | recursionError => "RecursionError"
  | overflowError => "OverflowError"
  | connectionError => "ConnectionError"
  | responseError => "ResponseError"
  | dataError => "DataError"
  | dbApiError => "DBAPIError"
  | noResultFound => "NoResultFound"
  | appError .. => "AppError"

/-- The functions of `json`, `uuid`, `datetime` and `hashlib` that the code
calls. No theorem assumes a law of them that it does not name. -/
structure Python where
  /-- `json.loads`. -/
  loads : String → Except Exn Json
  /-- `json.dumps(_, default=str)`. -/
  dumps : Json → String
  /-- `UUID(text)`; `none` is a `ValueError`. -/
  uuidOf : String → Option UUID
  /-- `str(uuid)`. -/
  uuidStr : UUID → String
  /-- `datetime.fromisoformat(text)`; `none` is a `ValueError`. -/
  fromisoformat : String → Option Datetime
  /-- `datetime.isoformat()`. -/
  isoformat : Datetime → String
  /-- `hashlib.sha256(text.encode("utf-8")).hexdigest()`. -/
  sha256Hex : String → String

/-- The same functions on finitely many texts, for runs on fixed inputs. `dumps`
finds a payload by its event id. -/
def Python.ofTable (texts : List (String × Dict)) (uuids : List (String × UUID)) : Python where
  loads s := ((texts.lookup s).map fun d => .ok (.obj d)).getD (.error .jsonDecodeError)
  dumps payload :=
    match payload with
    | .obj d =>
      ((texts.find? fun t => sameText (Dict.get t.2 "event_id") (Dict.get d "event_id")).map
        Prod.fst).getD ""
    | _ => ""
  uuidOf s := uuids.lookup s
  uuidStr u := ((uuids.find? fun t => t.2 = u).map Prod.fst).getD ""
  fromisoformat _ := none
  isoformat _ := ""
  sha256Hex _ := ""
where
  sameText : Json → Json → Bool
    | .str s, .str t => s = t
    | _, _ => false

end EventAnalytics
