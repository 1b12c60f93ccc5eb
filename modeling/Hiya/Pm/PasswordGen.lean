import Hiya.Library.Draws
import Hiya.Pm.SecurityAudit

/-! The password generator of `pm_password_gen.c` with its policies, and the check of a given
password against a policy. Words and patterns are not part of it. -/

namespace Hiya.Pm
open Library

inductive CharClass
  | lowercase
  | uppercase
  | digits
  | symbols
  deriving DecidableEq

namespace CharClass

def all : List CharClass := [lowercase, uppercase, digits, symbols]

/-- The bit in `pm_charset_flags_t`. -/
def flag : CharClass → UInt32
  | lowercase => 1
  | uppercase => 2
  | digits => 4
  | symbols => 8

def chars : CharClass → Bytes
  | lowercase => Audit.lowercase
  | uppercase => Audit.uppercase
  | digits => Audit.digits
  | symbols => Audit.symbols

end CharClass

def charsetAmbiguous : Bytes := literal "0O1Il|"

def charsetAlphanum : UInt32 := 7
def charsetAll : UInt32 := 15

structure PasswordPolicy where
  length : UInt32
  charset : UInt32
  minUppercase : UInt32 := 0
  minLowercase : UInt32 := 0
  minDigits : UInt32 := 0
  minSymbols : UInt32 := 0
  excludeAmbiguous : Bool := false
  requireAllCharsets : Bool := false
  noRepeating : Bool := false
  noSequential : Bool := false
  customCharset : Option CStr := none
  excludedChars : Option CStr := none
  requiredChars : Option CStr := none
  maxConsecutive : UInt32 := 0
  startWithLetter : Bool := false
  endWithLetter : Bool := false

namespace PasswordPolicy

def minimum (policy : PasswordPolicy) : CharClass → UInt32
  | .lowercase => policy.minLowercase
  | .uppercase => policy.minUppercase
  | .digits => policy.minDigits
  | .symbols => policy.minSymbols

def enables (policy : PasswordPolicy) (kind : CharClass) : Bool := policy.charset &&& kind.flag ≠ 0

end PasswordPolicy

def policyBasic : PasswordPolicy where
  length := 12
  charset := charsetAlphanum
  minUppercase := 1
  minLowercase := 1
  minDigits := 1
  excludeAmbiguous := true
  requireAllCharsets := true
  maxConsecutive := 2

def policyStrong : PasswordPolicy where
  length := 16
  charset := charsetAll
  minUppercase := 2
  minLowercase := 2
  minDigits := 2
  minSymbols := 2
  excludeAmbiguous := true
  requireAllCharsets := true
  maxConsecutive := 2
  noRepeating := true

def policyMaximum : PasswordPolicy where
  length := 32
  charset := charsetAll
  minUppercase := 4
  minLowercase := 4
  minDigits := 4
  minSymbols := 4
  excludeAmbiguous := true
  requireAllCharsets := true
  maxConsecutive := 1
  noRepeating := true
  noSequential := true

/-- `strchr` finds the terminator too. -/
def charInSet (char : UInt8) (set : Bytes) : Bool := char = 0 || char ∈ set

def classOf (char : UInt8) : Option CharClass := CharClass.all.find? fun kind => charInSet char kind.chars

def countOf (kind : CharClass) (password : Bytes) : UInt32 :=
    UInt32.ofNat (password.countP fun char => classOf char = some kind)

def repeatsAt (password : Bytes) (place : Nat) : Bool := 0 < place && password.getD place 0 = password.getD (place - 1) 0

/-- So many characters in front of this place are the same as the one there. -/
def sameBefore (password : Bytes) (place count : Nat) : Bool :=
  count ≤ place && (List.range' 1 count).all fun back => password.getD (place - back) 0 = password.getD place 0

def refusesAt (policy : PasswordPolicy) (password : Bytes) (place : Nat) : Bool :=
  policy.excludeAmbiguous && charInSet (password.getD place 0) charsetAmbiguous ||
    policy.excludedChars.any (fun set => charInSet (password.getD place 0) set.bytes) ||
    policy.noRepeating && repeatsAt password place ||
    0 < policy.maxConsecutive && sameBefore password place policy.maxConsecutive.toNat

def validatePasswordPolicy (password : Bytes) (policy : PasswordPolicy) : Except PmError Unit :=
  if password.length ≠ policy.length.toNat then .error .policy
  else if (List.range password.length).any (refusesAt policy password) then .error .policy
  else if CharClass.all.any fun kind => countOf kind password < policy.minimum kind then .error .policy
  else .ok ()

def PasswordPolicy.accepts (policy : PasswordPolicy) (password : Bytes) : Bool :=
    (validatePasswordPolicy password policy).isOk

/-- Each of these characters is removed where it first stands. -/
def removeChars (removed charset : Bytes) : Bytes := removed.foldl List.erase charset

def buildCharsetString (memory : Bool) (policy : PasswordPolicy) : Except PmError Bytes :=
  match policy.customCharset with
  | some custom => if memory then .ok custom.bytes else .error .nomem
  | none =>
    if !memory then .error .nomem
    else
      let charset := CharClass.all.flatMap fun kind => if policy.enables kind then kind.chars else []
      let charset := if policy.excludeAmbiguous then removeChars charsetAmbiguous charset else charset
      let charset := policy.excludedChars.elim charset fun set => removeChars set.bytes charset
      if charset = [] then .error .invalidParam else .ok charset

def pickChar (charset : Bytes) (byte : UInt8) : UInt8 := charset.getD (byte.toNat % charset.length) 0

def drawPassword (charset : Bytes) (length : Nat) : Proc (Draws UInt8) PmError Bytes :=
  Proc.draws .crypto (pickChar charset) length

/-- Write a character at a place that a random byte tells. -/
def replaceAt (policy : PasswordPolicy) (password : Bytes) (drawn : UInt8 × UInt8) : Bytes :=
  password.set (drawn.1.toNat % policy.length.toNat) drawn.2

def addRequired (policy : PasswordPolicy) (password : Bytes) : Proc (Draws UInt8) PmError Bytes :=
  match policy.requiredChars with
  | none => pure password
  | some required => Proc.drawTill (replaceAt policy) (required.bytes.take policy.length.toNat) password

/-- The memory for the charset and for the password. -/
structure GeneratorMemory where
  charset : Bool
  password : Bool

def maxAttempts : Nat := 1000

def passwordGenerate (memory : GeneratorMemory) (policy : PasswordPolicy) : Proc (Draws UInt8) PmError Bytes :=
  if policy.length < 1 ∨ policy.length > 128 then Proc.fail .invalidParam
  else
    match buildCharsetString memory.charset policy with
    | .error problem => Proc.fail problem
    | .ok charset =>
      if charset.length = 0 then Proc.fail .invalidParam
      else if !memory.password then Proc.fail .nomem
      else do
        let password ← Proc.retry policy.accepts (drawPassword charset policy.length.toNat)
          (addRequired policy) maxAttempts []
        if policy.accepts password then pure password else Proc.fail .policy

/-- `APPEND_ERR` -/
def appendErr (errors message : Bytes) : Bytes :=
  if errors.length + message.length + 2 < 1024 then (if 0 < errors.length then errors ++ literal "; " else errors) ++
    message else errors

def errorsAt (policy : PasswordPolicy) (password errors : Bytes) (place : Nat) : Bytes :=
  let errors :=
    if policy.excludeAmbiguous && charInSet (password.getD place 0) charsetAmbiguous then
      appendErr errors (literal "contains ambiguous character") else errors
  if policy.noRepeating && repeatsAt password place then appendErr errors (literal "contains repeating characters")
    else errors

def tooFew : List (CharClass × String) :=
  [(.uppercase, "too few uppercase letters"), (.lowercase, "too few lowercase letters"), (.digits, "too few digits"),
    (.symbols, "too few symbols")]

def policyErrors (policy : PasswordPolicy) (password : Bytes) : Bytes :=
  let errors := if password.length < policy.length.toNat then appendErr [] (literal "too short") else []
  let errors := (List.range password.length).foldl (errorsAt policy password) errors
  tooFew.foldl (fun errors check => if countOf check.1 password < policy.minimum check.1 then
    appendErr errors (literal check.2) else errors) errors

/-- The result, and the text the caller gets. -/
def passwordCheckPolicy (memory : Bool) (password : Bytes) (policy : PasswordPolicy) : Except PmError Unit × Option Bytes :=
  let errors := policyErrors policy password
  if 0 < errors.length then
    if memory then (.error .policy, some errors) else (.error .nomem, none)
  else (.ok (), none)

end Hiya.Pm
