import Coap.Decimal.Rounding

namespace Coap

/-!
# Message codes

A code is one byte, written `class.detail`: the class is the upper three bits,
the detail the lower five. Class 0 holds the request methods and the empty code,
class 2 the successful answers, classes 4 and 5 the errors.
-/

/-- The codes this implementation knows. -/
inductive Code where
  | empty
  | get
  | post
  | put
  | delete
  | created
  | deleted
  | valid
  | changed
  | content
  /-- Acknowledges one block of a transfer that is not finished. -/
  | continued
  | badRequest
  | unauthorized
  | badOption
  | forbidden
  | notFound
  | methodNotAllowed
  | notAcceptable
  | requestEntityIncomplete
  | conflict
  | preconditionFailed
  | requestEntityTooLarge
  | unsupportedContentFormat
  | internalServerError
  | notImplemented
  | badGateway
  | serviceUnavailable
  | gatewayTimeout
  | proxyingNotSupported
deriving DecidableEq, Repr

namespace Code

/-- Every code, in the order of their bytes. -/
def all : List Code :=
  [.empty, .get, .post, .put, .delete, .created, .deleted, .valid, .changed,
    .content, .continued, .badRequest, .unauthorized, .badOption, .forbidden,
    .notFound, .methodNotAllowed, .notAcceptable, .requestEntityIncomplete,
    .conflict, .preconditionFailed, .requestEntityTooLarge,
    .unsupportedContentFormat, .internalServerError, .notImplemented, .badGateway,
    .serviceUnavailable, .gatewayTimeout, .proxyingNotSupported]

/-- The byte of a code. -/
def toByte : Code → UInt8
  | .empty => 0
  | .get => 1
  | .post => 2
  | .put => 3
  | .delete => 4
  | .created => 65
  | .deleted => 66
  | .valid => 67
  | .changed => 68
  | .content => 69
  | .continued => 95
  | .badRequest => 128
  | .unauthorized => 129
  | .badOption => 130
  | .forbidden => 131
  | .notFound => 132
  | .methodNotAllowed => 133
  | .notAcceptable => 134
  | .requestEntityIncomplete => 136
  | .conflict => 137
  | .preconditionFailed => 140
  | .requestEntityTooLarge => 141
  | .unsupportedContentFormat => 143
  | .internalServerError => 160
  | .notImplemented => 161
  | .badGateway => 162
  | .serviceUnavailable => 163
  | .gatewayTimeout => 164
  | .proxyingNotSupported => 165

/-- The code with a given byte, if it is known. -/
def ofByte? (byte : UInt8) : Option Code :=
  all.find? fun code => code.toByte == byte

/-- The upper three bits. -/
def codeClass (code : Code) : Nat :=
  code.toByte.toNat / 32

/-- The lower five bits. -/
def detail (code : Code) : Nat :=
  code.toByte.toNat % 32

/-- A request method: class 0 and not empty. -/
def isRequest (code : Code) : Bool :=
  code.codeClass == 0 && code != .empty

/-- A successful answer: class 2. -/
def isSuccess (code : Code) : Bool :=
  code.codeClass == 2

/-- The name of a code. -/
def name : Code → String
  | .empty => "Empty"
  | .get => "GET"
  | .post => "POST"
  | .put => "PUT"
  | .delete => "DELETE"
  | .created => "Created"
  | .deleted => "Deleted"
  | .valid => "Valid"
  | .changed => "Changed"
  | .content => "Content"
  | .continued => "Continue"
  | .badRequest => "Bad Request"
  | .unauthorized => "Unauthorized"
  | .badOption => "Bad Option"
  | .forbidden => "Forbidden"
  | .notFound => "Not Found"
  | .methodNotAllowed => "Method Not Allowed"
  | .notAcceptable => "Not Acceptable"
  | .requestEntityIncomplete => "Request Entity Incomplete"
  | .conflict => "Conflict"
  | .preconditionFailed => "Precondition Failed"
  | .requestEntityTooLarge => "Request Entity Too Large"
  | .unsupportedContentFormat => "Unsupported Content-Format"
  | .internalServerError => "Internal Server Error"
  | .notImplemented => "Not Implemented"
  | .badGateway => "Bad Gateway"
  | .serviceUnavailable => "Service Unavailable"
  | .gatewayTimeout => "Gateway Timeout"
  | .proxyingNotSupported => "Proxying Not Supported"

/-- The code as `class.detail name`, the detail with two digits. -/
def text (code : Code) : String :=
  toString code.codeClass ++ "." ++ Decimal.natural 2 code.detail ++
    " " ++ code.name

theorem ofByte?_toByte (code : Code) :
    ofByte? code.toByte = some code := by
  cases code <;> rfl

theorem toByte_of_ofByte? {byte : UInt8} {code : Code}
    (found : ofByte? byte = some code) :
    code.toByte = byte := by
  have matched := List.find?_some found
  simpa using matched

end Code

end Coap
