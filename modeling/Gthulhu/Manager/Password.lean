/-
Password hashes (`api/pkg/util/encrypt.go`), and how a password is stored and
compared (`EncryptedPassword` of `api/manager/domain/value.go`).

A hash is one text with the parameters, the salt and the key in it, in the
format `$argon2id$v=19$m=..,t=..,p=..$salt$key`. A password is hashed where the
document is encoded, unless it has the shape of a hash (`isArgon2Hash`). The
key derivation is a parameter, `Argon2`, of which only the length of its output
is known; `Argon2.passwords` are the functions the services are given.
-/
import Gthulhu.Lib.Base64
import Gthulhu.Lib.Pattern
import Gthulhu.Lib.Scan
import Gthulhu.Manager.Auth

namespace Gthulhu.Manager

open Lib

structure Argon2idParams where
  memory : UInt32
  iterations : UInt32
  parallelism : UInt8
  saltLength : UInt32
  keyLength : UInt32
  deriving DecidableEq

/-- Nothing calls `InitArgon2idParams` to change them. -/
def defaultArgon2idParams : Argon2idParams where
  memory := 16 * 1024
  iterations := 3
  parallelism := 2
  saltLength := 16
  keyLength := 32

/-- `golang.org/x/crypto/argon2`. -/
structure Argon2 where
  key : (password salt : List UInt8) → (time memory : UInt32) → (threads : UInt8) → (keyLen : UInt32) → List UInt8
  length_key : ∀ password salt time memory threads keyLen,
    (key password salt time memory threads keyLen).length = keyLen.toNat

/-- `argon2.Version`. -/
def argon2Version : Nat := 0x13

/-- `argon2.IDKey`. It panics without a round or a thread. -/
def Argon2.idKey (argon2 : Argon2) (password : String) (salt : List UInt8) (p : Argon2idParams) :
    Except Error (List UInt8) :=
  if p.iterations < 1 then .error (.text "argon2: number of rounds too small")
  else if p.parallelism < 1 then .error (.text "argon2: parallelism degree too low")
  else .ok (argon2.key (Util.utf8 password) salt p.iterations p.memory p.parallelism p.keyLength)

/-! ## The shape of a hash -/

section

open Pattern

/-- `\d+`. -/
def digits : Pattern := oneOrMore (oneOf "0123456789".toList)

/-- `[A-Za-z0-9+/=]+`. -/
def base64Text : Pattern := oneOrMore (oneOf (base64Alphabet ++ ['=']))

def argon2Regex : Pattern :=
  text "$argon2".toList * (text "id".toList + text "i".toList + text "d".toList) * text "$v=".toList * digits *
    text "$m=".toList * digits * text ",t=".toList * digits * text ",p=".toList * digits *
    text "$".toList * base64Text * text "$".toList * base64Text

end

def isArgon2Hash (s : String) : Bool := argon2Regex.rmatch s.toList

/-! ## Hashes as text -/

/-- What `CreateArgon2Hash` writes. -/
def encodeHash (p : Argon2idParams) (salt hash : List UInt8) : String :=
  "$argon2id$v=" ++ toString argon2Version ++ "$m=" ++ toString p.memory.toNat ++ ",t=" ++ toString p.iterations.toNat ++
    ",p=" ++ toString p.parallelism.toNat ++ "$" ++ base64Encode salt ++ "$" ++ base64Encode hash

/-- With the salt that `rand.Read` has filled. -/
def createArgon2Hash (argon2 : Argon2) (p : Argon2idParams) (salt : List UInt8) (password : String) :
    Except Error String := do
  let hash ← argon2.idKey password salt p
  return encodeHash p salt hash

/-- `fmt.Sscanf(s, "v=%d", &version)`. -/
def scanVersion (s : String) : Option Int := do
  let (version, _) ← scanInt (← scanLiteral ['v', '='] s.toList)
  return version

/-- `fmt.Sscanf(s, "m=%d,t=%d,p=%d", &p.Memory, &p.Iterations, &p.Parallelism)`. -/
def scanParams (s : String) : Option (UInt32 × UInt32 × UInt8) := do
  let (memory, rest) ← scanUint 32 (← scanLiteral ['m', '='] s.toList)
  let (iterations, rest) ← scanUint 32 (← scanLiteral [',', 't', '='] rest)
  let (parallelism, _) ← scanUint 8 (← scanLiteral [',', 'p', '='] rest)
  return (UInt32.ofNat memory, UInt32.ofNat iterations, UInt8.ofNat parallelism)

/-- The error of a library function; which one it is does not matter here. -/
def orError {α : Type} (message : String) : Option α → Except Error α
  | none => .error (.text message)
  | some a => .ok a

/-- The parameters, salt and key of a hash. Its first two parts are not looked at. -/
def decodeHash (encodedHash : String) : Except Error (Argon2idParams × List UInt8 × List UInt8) :=
  match split encodedHash '$' with
  | [_, _, version, params, b64Salt, b64Hash] => do
    let version ← orError "input does not match format" (scanVersion version)
    if version ≠ argon2Version then throw (.text ("不支援的 argon2 版本: " ++ toString version))
    let (memory, iterations, parallelism) ← orError "input does not match format" (scanParams params)
    let salt ← orError "illegal base64 data" (base64Decode b64Salt)
    let hash ← orError "illegal base64 data" (base64Decode b64Hash)
    return (⟨memory, iterations, parallelism, UInt32.ofNat salt.length, UInt32.ofNat hash.length⟩, salt, hash)
  | _ => .error (.text "無效的 hash 格式")

def comparePasswordAndHash (argon2 : Argon2) (password encodedHash : String) : Except Error Bool := do
  let (p, salt, hash) ← decodeHash encodedHash
  let otherHash ← argon2.idKey password salt p
  return hash = otherHash

/-- The functions of `encrypt.go`. With the default parameters no hash panics. -/
def Argon2.passwords (argon2 : Argon2) : Passwords where
  isArgon2Hash := isArgon2Hash
  createArgon2Hash salt password := (createArgon2Hash argon2 defaultArgon2idParams salt password).toOption.getD ""
  comparePasswordAndHash := comparePasswordAndHash argon2

end Gthulhu.Manager
