import Hiya.Daemon.State
import Hiya.Fido2.Storage
import Hiya.Library.Text

/-! The enrolment files of `bio_daemon.c`: one for each user, behind a MAC under a key
that the state directory keeps beside them. -/

namespace Hiya.Daemon
open Library
open Fido2 (Take takeBytes takeNat)

def enrollmentMagic : Nat := 0x42415554
def enrollmentVersion : Nat := 2
def maxSavedUsers : Nat := 128

def enrollmentBytes (enrolled : Enrollment) : Bytes :=
  [enrolled.finger] ++ enrolled.label.bytes ++ leBytes 8 enrolled.created.toUInt64.toNat ++
    leBytes 4 enrolled.printData.bytes.length ++ enrolled.printData.bytes ++
    leBytes 4 enrolled.sealedBlob.bytes.length ++ enrolled.sealedBlob.bytes

/-- Magic, version and a count of 16 bits, and the user's enrolments. -/
def userBytes (own : List Enrollment) : Bytes :=
  leBytes 4 enrollmentMagic ++ leBytes 2 enrollmentVersion ++ leBytes 2 own.length ++ own.flatMap enrollmentBytes

/-- The users who have an enrolment, as many of them as an array of 128 holds. -/
def savedUids (enrollments : List Enrollment) : List Uid :=
  enrollments.foldl
    (fun uids enrolled => if enrolled.uid ∉ uids ∧ uids.length < maxSavedUsers then uids ++ [enrolled.uid] else uids) []

section
-- `mac` is what stands in the array behind `bio_hmac_sha256`, whose code is not looked at
variable (mac : Buf 32 → Bytes → Buf 32) (env : Env)

/-- The key of the installation, drawn and stored when it is first needed. -/
def getEnrollmentHmacKey (dir : StateDir) : Option (Buf 32) × StateDir :=
  match dir.hmacKey, env.newKey with
  | some key, _ => (some key, dir)
  | none, some key => (some key, { dir with hmacKey := some key })
  | none, none => (none, dir)

def sealedFile (key : Buf 32) (body : Bytes) : Bytes := body ++ (mac key body).bytes

def putFile (uid : Uid) (file : Bytes) : List (Uid × Bytes) → List (Uid × Bytes)
  | [] => [(uid, file)]
  | (other, old) :: rest => if other = uid then (uid, file) :: rest else (other, old) :: putFile uid file rest

/-- One file after the other. One that cannot be written is left as it was; a directory
or a file that cannot be opened ends the save. -/
def saveUsers (enrollments : List Enrollment) : List Uid → Bool → StateDir → Bool × StateDir
  | [], done, dir => (done, dir)
  | uid :: rest, done, dir =>
    if !env.makesDir uid || !env.opensFile uid then (false, dir)
    else if !env.writesFile uid then saveUsers enrollments rest false dir
    else match getEnrollmentHmacKey env dir with
      | (none, dir) => saveUsers enrollments rest false dir
      | (some key, dir) =>
        let body := userBytes (enrollments.filter fun enrolled => enrolled.uid = uid)
        if env.renamesFile uid then
          saveUsers enrollments rest done { dir with files := putFile uid (sealedFile mac key body) dir.files }
        else saveUsers enrollments rest false dir

def saveEnrollments (enrollments : List Enrollment) (dir : StateDir) : Bool × StateDir :=
  saveUsers mac env enrollments (savedUids enrollments) true dir

/-- One entry. The lengths are checked against the arrays they fill. -/
def readEnrollment (uid : Uid) : Take Enrollment := do
  let finger ← takeNat 1
  let label ← takeBytes labelSize
  let created ← takeNat 8
  let printLen ← takeNat 4
  if maxPrintDataSize < printLen then Proc.fail () else pure ()
  let printData ← takeBytes printLen
  let sealedLen ← takeNat 4
  if maxSealedBlobSize < sealedLen then Proc.fail () else pure ()
  let sealedBlob ← takeBytes sealedLen
  pure {
    uid
    finger := UInt8.ofNat finger
    label
    created := (UInt64.ofNat created).toInt64
    printData := .ofSlice _ printData.bytes
    sealedBlob := .ofSlice _ sealedBlob.bytes }

/-- Entries up to the count of the header, or to the first that cannot be read. -/
def readEnrollments (uid : Uid) : Nat → Bytes → List Enrollment
  | 0, _ => []
  | count + 1, bytes =>
    match readEnrollment uid bytes with
    | (.ok enrolled, rest) => enrolled :: readEnrollments uid count rest
    | (.error _, _) => []

def loadUser (key : Buf 32) (uid : Uid) (file : Bytes) : List Enrollment :=
  let body := file.take (file.length - 32)
  if (mac key body).bytes ≠ file.drop (file.length - 32) then []
  else if leNat (file.take 4) ≠ enrollmentMagic then []
  else if leNat ((file.drop 4).take 2) ≠ enrollmentVersion then []
  else readEnrollments uid (leNat ((file.drop 6).take 2)) (file.drop 8)

/-- The walk over the user directories. A file too short for header and MAC is skipped
before the key is asked for. -/
def loadUsers : List (Uid × Bytes) → List Enrollment → StateDir → Option (List Enrollment) × StateDir
  | [], loaded, dir => (some loaded, dir)
  | (uid, file) :: rest, loaded, dir =>
    if file.length < 40 then loadUsers rest loaded dir
    else match getEnrollmentHmacKey env dir with
      | (none, dir) => (none, dir)
      | (some key, dir) => loadUsers rest (loaded ++ loadUser mac key uid file) dir

def loadEnrollments (dir : StateDir) : Option (List Enrollment) × StateDir := loadUsers mac env dir.files [] dir

end

inductive LoadCode
  | ok
  | noMem
  | cryptoInit
  deriving DecidableEq, Repr

/-- An enrolment file that was opened: whether its length can be told, a buffer had for it, and all
of it read; the key its MAC is checked with, and whether the MAC can be computed; and where reading
it once more breaks off. -/
structure EnrollmentFile where
  content : Bytes
  measured : Bool
  buffered : Bool
  readWhole : Bool
  key : Option (Buf 32)
  hashed : Bool
  secondRead : Option Nat

/-- A name in the directory of the users, and the file behind it if it can be opened. -/
structure DirEntry where
  name : Bytes
  file : Option EnrollmentFile

/-- A directory is for a user if its name is a number that is a user's. -/
def dirUid (name : Bytes) : Option Uid :=
  if name.head? = some dot then none
  else
    let number := strtoull name
    if number.rest ≠ [] ∨ number.outOfRange then none
    else if number.rest = name then none
    else if number.value > 0xFFFFFFFF then none
    else some (UInt32.ofNat number.value.toNat)

def EnrollmentFile.body (file : EnrollmentFile) : Bytes := file.content.take (file.content.length - 32)

def EnrollmentFile.trailer (file : EnrollmentFile) : Bytes := file.content.drop (file.content.length - 32)

/-- The bytes there are when the file is read once more to take it apart. -/
def EnrollmentFile.delivered (file : EnrollmentFile) : Bytes :=
  match file.secondRead with
  | none => file.content
  | some count => file.content.take count

def takeHeader : Take Nat := do
  if (← takeNat 4) ≠ enrollmentMagic then Proc.fail () else pure ()
  if (← takeNat 2) ≠ enrollmentVersion then Proc.fail () else pure ()
  takeNat 2

def recordsIn (uid : Uid) (bytes : Bytes) : List Enrollment :=
  match takeHeader bytes with
  | (.ok count, rest) => readEnrollments uid count rest
  | (.error _, _) => []

/-- What is loaded so far, and how much the array holds. -/
structure Loader where
  records : List Enrollment
  capacity : Nat

section
variable (mac : Buf 32 → Bytes → Buf 32) (grows : Nat → Bool)

/-- An entry up to the key for its MAC: nothing for one that is passed over. -/
def openedFile (entry : DirEntry) : Except LoadCode (Option (Uid × EnrollmentFile × Buf 32)) :=
  match dirUid entry.name, entry.file with
  | some uid, some file =>
    if !file.measured ∨ file.content.length < 40 then .ok none
    else if !file.buffered then .error .noMem
    else if !file.readWhole then .ok none
    else match file.key with
      | none => .error .cryptoInit
      | some key => .ok (some (uid, file, key))
  | _, _ => .ok none

/-- The array of the MAC behind `bio_hmac_sha256`, which wipes it when it fails. -/
def EnrollmentFile.expectedMac (file : EnrollmentFile) (key : Buf 32) : Buf 32 :=
  if file.hashed then mac key file.body else .zero 32

/-- Whether the MAC could be computed is not looked at. -/
def authenticFile (entry : DirEntry) : Except LoadCode (Option (Uid × EnrollmentFile)) :=
  match openedFile entry with
  | .error code => .error code
  | .ok none => .ok none
  | .ok (some (uid, file, key)) =>
    if (file.expectedMac mac key).bytes ≠ file.trailer then .ok none else .ok (some (uid, file))

/-- Before a record is read, there has to be room for it. -/
def makeRoom : Proc Loader LoadCode Unit := do
  let loader ← Proc.get
  if loader.capacity ≤ loader.records.length then
    if grows (loader.capacity * 2) then Proc.modify fun loader => { loader with capacity := loader.capacity * 2 }
      else Proc.fail .noMem
  else pure ()

/-- The loop over the records of a file, which the first one that cannot be read ends. -/
def readRecords (uid : Uid) : Nat → Bytes → Proc Loader LoadCode Unit
  | 0, _ => pure ()
  | count + 1, bytes => do
    makeRoom grows
    match readEnrollment uid bytes with
    | (.ok enrolled, rest) => do
      Proc.modify fun loader => { loader with records := loader.records ++ [enrolled] }
      readRecords uid count rest
    | (.error _, _) => pure ()

def loadEntry (entry : DirEntry) : Proc Loader LoadCode Unit :=
  match authenticFile mac entry with
  | .error code => Proc.fail code
  | .ok none => pure ()
  | .ok (some (uid, file)) =>
    match takeHeader file.delivered with
    | (.ok count, rest) => readRecords grows uid count rest
    | (.error _, _) => pure ()

structure LoadResult where
  code : LoadCode
  enrollments : Option (List Enrollment)
  count : Nat
  deriving DecidableEq

/-- The count is kept while the files are read; the array is handed over in the end. -/
def bioDaemonLoadEnrollments (arrayGranted : Bool) (dir : Option (List DirEntry)) : LoadResult :=
  match dir with
  | none => ⟨.ok, none, 0⟩
  | some entries =>
    if !arrayGranted then ⟨.noMem, none, 0⟩
    else match Proc.each (loadEntry mac grows) entries ⟨[], 16⟩ with
      | (.ok _, loader) => ⟨.ok, some loader.records, loader.records.length⟩
      | (.error code, loader) => ⟨code, none, loader.records.length⟩

end

def Enrollment.zero : Enrollment where
  uid := 0
  finger := 0
  printData := .empty _
  sealedBlob := .empty _
  label := .zero _
  created := 0

/-- The array, if there is one, and how many of its slots are taken to be in use. -/
structure EnrollmentTable where
  slots : Option (List Enrollment)
  count : Nat
  capacity : Nat

def roomFor (count capacity : Nat) : Nat :=
  if 0 < capacity ∧ capacity < count then roomFor count (capacity * 2) else capacity
termination_by count - capacity

/-- `bio_daemon_create` goes on after a failure, with the count it was given. -/
def createTable (tableGranted : Bool) (result : LoadResult) : EnrollmentTable :=
  let capacity := roomFor result.count 16
  match result.enrollments with
  | some enrollments => ⟨some enrollments, result.count, capacity⟩
  | none =>
    if tableGranted then ⟨some (List.replicate capacity .zero), result.count, capacity⟩
    else ⟨none, result.count, 0⟩

end Hiya.Daemon
