import Hiya.Library.Json
import Hiya.Pm.SecurityAudit

/-! The report of an audit as a JSON text, which `pm_audit_export_json` writes piece by piece
into a block whose size it has guessed from the number of issues. -/

namespace Hiya.Pm.Audit
open Library

/-- An issue as a caller may have built it. -/
structure SecurityIssue where
  type : Int32
  severity : Int32
  entryId : Option CStr
  entryTitle : Option CStr
  description : Option CStr
  recommendation : Option CStr
  scoreImpact : UInt32

structure SecurityAudit where
  overallScore : UInt32
  entriesAudited : UInt32
  issuesFound : UInt32
  criticalIssues : UInt32
  highIssues : UInt32
  mediumIssues : UInt32
  lowIssues : UInt32
  issues : List SecurityIssue
  generated : Int64

/-- `%u`. -/
def unsigned (value : Nat) : Bytes := literal (toString value)

/-- `%d` and `%ld`. -/
def signed (value : Int) : Bytes := if value < 0 then 45 :: unsigned value.natAbs else unsigned value.natAbs

/-- A null pointer is written as an empty text. -/
def orEmpty (text : Option CStr) : Bytes := (text.getD .empty).bytes

/-- A key in quotes and what stands behind it on its line. -/
def keyed (indent : Nat) (key : String) (rest : Bytes) : Bytes :=
  List.replicate indent 32 ++ literal "\"" ++ literal key ++ literal "\": " ++ rest

def headerNumber (key : String) (value : Bytes) : Bytes := keyed 2 key (value ++ literal ",\n")

def issueNumber (key : String) (value : Bytes) : Bytes := keyed 6 key (value ++ literal ",\n")

def issueText (key : String) (text : Option CStr) : Bytes := keyed 6 key (literal "\"" ++ orEmpty text ++ literal "\",\n")

def headerPiece (audit : SecurityAudit) : Bytes :=
  literal "\x7b\n" ++
  headerNumber "overall_score" (unsigned audit.overallScore.toNat) ++
  headerNumber "entries_audited" (unsigned audit.entriesAudited.toNat) ++
  headerNumber "issues_found" (unsigned audit.issuesFound.toNat) ++
  headerNumber "critical_issues" (unsigned audit.criticalIssues.toNat) ++
  headerNumber "high_issues" (unsigned audit.highIssues.toNat) ++
  headerNumber "medium_issues" (unsigned audit.mediumIssues.toNat) ++
  headerNumber "low_issues" (unsigned audit.lowIssues.toNat) ++
  headerNumber "generated" (signed audit.generated.toInt) ++
  keyed 2 "issues" (literal "[\n")

def issuePiece (issue : SecurityIssue) (last : Bool) : Bytes :=
  literal "    \x7b\n" ++
  issueNumber "type" (signed issue.type.toInt) ++
  issueNumber "severity" (signed issue.severity.toInt) ++
  issueText "entry_id" issue.entryId ++
  issueText "entry_title" issue.entryTitle ++
  issueText "description" issue.description ++
  issueText "recommendation" issue.recommendation ++
  keyed 6 "score_impact" (unsigned issue.scoreImpact.toNat ++ literal "\n") ++
  literal "    \x7d" ++ (if last then [] else literal ",") ++ literal "\n"

/-- There is a comma behind every issue but the last. -/
def issuePieces : List SecurityIssue → List Bytes
  | [] => []
  | [issue] => [issuePiece issue true]
  | issue :: rest => issuePiece issue false :: issuePieces rest

def footerPiece : Bytes := literal "  ]\n\x7d\n"

def auditPieces (audit : SecurityAudit) : List Bytes := headerPiece audit :: issuePieces audit.issues ++ [footerPiece]

def intMax : Nat := 2147483647

/-- What C leaves without a meaning: a write that leaves the block, and a length or a sum of
lengths that an `int` does not hold. -/
inductive Fault
  | outside
  | overflow
  deriving DecidableEq

/-- `offset += snprintf(json + offset, json_size - offset, ...)`. The offset moves by the length
of the whole piece, cut off or not, and the difference is one of unsigned words. -/
def appendPiece (size : Nat) (state : Bytes × Nat) (piece : Bytes) : Except Fault (Bytes × Nat) :=
  let (block, offset) := state
  let room := (size + (sizeMax + 1) - offset) % (sizeMax + 1)
  let kept := if room = 0 then [] else piece.take (room - 1) ++ [0]
  if block.length < offset + kept.length then .error .outside
  else if intMax < offset + piece.length then .error .overflow
  else .ok (block.take offset ++ kept ++ block.drop (offset + kept.length), offset + piece.length)

def jsonSize (audit : SecurityAudit) : Nat := (4096 + audit.issues.length * 512) % (sizeMax + 1)

/-- How the export ends: with an error, in what has no meaning, or with a block that is
handed to the caller. -/
inductive Export
  | failed (problem : PmError)
  | faulty (fault : Fault)
  | written (block : Bytes)

/-- The pieces, one behind the other from the beginning of the block. -/
def writePieces (audit : SecurityAudit) (block : Bytes) : Except Fault (Bytes × Nat) :=
  (auditPieces audit).foldlM (appendPiece (jsonSize audit)) (block, 0)

/-- What the caller is handed after the last piece. -/
def handed : Except Fault (Bytes × Nat) → Export
  | .error fault => .faulty fault
  | .ok (block, _) => .written block

/-- `malloc` hands out a block with anything in it, or nothing. -/
def auditExportJson (malloc : (size : Nat) → Option (Buf size)) (audit : Option SecurityAudit) : Export :=
  match audit with
  | none => .failed .invalidParam
  | some audit =>
    match malloc (jsonSize audit) with
    | none => .failed .nomem
    | some json => handed (writePieces audit json.bytes)

end Hiya.Pm.Audit
