import Blokwork.Http.Status
import Blokwork.Json.Stream

/-!
# Requests and responses

A request names a resource and may have a query and a JSON body; its target writes the query as
a form. A transport sends a request and gives the response, unless the request could not be
sent or the response did not arrive.
-/

namespace Blokwork.Http

/-- What is asked of a resource. -/
inductive Method where
  | get
  | put
deriving DecidableEq, Repr

/-- A request. -/
structure Request where
  method : Method
  url : String
  query : List (String × String) := []
  authorization : String
  body : Option Json := none
deriving DecidableEq, Repr

/-- A response. -/
structure Response where
  status : Nat
  body : ByteArray

/-- A way to send requests. -/
abbrev Transport (m : Type → Type) := Request → m (Option Response)

/-- A byte stands for itself in a form. -/
def isFormByte (b : UInt8) : Bool :=
  let c := Char.ofNat b.toNat
  b < 128 && (c.isAlphanum || c = '*' || c = '-' || c = '.' || c = '_')

/-- One hexadecimal digit in upper case. -/
def upperHexDigit (n : Nat) : Char :=
  Char.ofNat (if n < 10 then '0'.toNat + n else 'A'.toNat + (n - 10))

/-- A byte in a form. -/
def formByte (b : UInt8) : List Char :=
  if b = 32 then ['+']
  else if isFormByte b then [Char.ofNat b.toNat]
  else ['%', upperHexDigit (b.toNat / 16), upperHexDigit (b.toNat % 16)]

/-- A text in a form. -/
def formText (s : String) : String :=
  String.ofList (s.toUTF8.toList.flatMap formByte)

/-- The address of a request with its query. -/
def Request.target (r : Request) : String :=
  if r.query.isEmpty then r.url
  else
    r.url ++ "?"
      ++ String.intercalate "&" (r.query.map fun (k, v) => formText k ++ "=" ++ formText v)

/-- The text of a body of which at most `fuel` bytes are read; a byte out of place is shown as
a mark. -/
def shownText : (fuel : Nat) → ByteArray → String
  | 0, _ => ""
  | fuel + 1, bytes =>
    match DecodedText.ofBytes bytes with
    | .whole text => text
    | .broken valid =>
      valid ++ "\uFFFD" ++ shownText fuel (bytes.extract (valid.utf8ByteSize + 1) bytes.size)

/-- The text of a body. -/
def Response.text (r : Response) : String := shownText (r.body.size + 1) r.body

end Blokwork.Http
