import Hiya.Pm.EntryStore

/-! The entry iterator of `pm_entry_store.c`. It lists the entries of a payload along the
tree of its groups: entries without a group first, then group by group, then whatever is
left. Groups may name parents that do not exist, or each other. -/

namespace Hiya.Pm
open Library

def findGroupById (payload : Payload) (groupId : CStr) : Option Group := payload.groups.find? (·.id = groupId)

def groupIsRoot (payload : Payload) (group : Group) : Bool :=
  if group.parentId = .empty then true else (findGroupById payload group.parentId).isNone

/-- The groups visited, the entries added, and the order in which they were. -/
structure Listing where
  groupVisited : Nat → Bool
  entryAdded : Nat → Bool
  entryOrder : List Nat

namespace Listing

def empty : Listing where
  groupVisited _ := false
  entryAdded _ := false
  entryOrder := []

def visit (group : Nat) (listing : Listing) : Listing :=
    { listing with groupVisited := Function.update listing.groupVisited group true }

def append (entry : Nat) (listing : Listing) : Listing :=
  { listing with entryOrder := listing.entryOrder ++ [entry], entryAdded := Function.update listing.entryAdded entry true }

end Listing

section
variable (payload : Payload)

/-- One round of the loop over the entries. Without a group the entries are meant that have
none. -/
def appendEntry (groupId : Option CStr) (listing : Listing) (entry : Entry × Nat) : Listing :=
  if listing.entryAdded entry.2 then listing
  else match groupId with
    | none => if entry.1.groupId ≠ .empty then listing else listing.append entry.2
    | some groupId => if entry.1.groupId ≠ groupId then listing else listing.append entry.2

def iteratorAppendEntriesForGroup (groupId : Option CStr) (listing : Listing) : Listing :=
  payload.entries.zipIdx.foldl (appendEntry groupId) listing

/-- The first argument is `remaining_depth`. -/
def iteratorWalkGroup : Nat → Nat → Listing → Except PmError Listing
  | 0, index, _ => if index ≥ payload.groups.length then .error .invalidParam else .error .state
  | remaining + 1, index, listing =>
    match payload.groups[index]? with
    | none => .error .invalidParam
    | some group =>
      if listing.groupVisited index then .ok listing
      else
        let listing := listing.visit index
        let listing := if group.id ≠ .empty then iteratorAppendEntriesForGroup payload (some group.id) listing else listing
        payload.groups.zipIdx.foldlM (fun listing child =>
          if group.id = .empty ∨ child.1.parentId ≠ group.id then .ok listing
          else iteratorWalkGroup remaining child.2 listing) listing

def walkRoots (listing : Listing) : Except PmError Listing :=
  payload.groups.zipIdx.foldlM (fun listing group =>
    if groupIsRoot payload group.1 then iteratorWalkGroup payload (payload.groups.length + 1) group.2 listing
      else .ok listing) listing

def walkOthers (listing : Listing) : Except PmError Listing :=
  payload.groups.zipIdx.foldlM (fun listing group =>
    if listing.groupVisited group.2 then .ok listing
    else iteratorWalkGroup payload (payload.groups.length + 1) group.2 listing) listing

def appendOthers (listing : Listing) : Listing :=
  payload.entries.zipIdx.foldl (fun listing entry => if listing.entryAdded entry.2 then listing
    else listing.append entry.2) listing

def listEntries : Except PmError (List Nat) :=
  if payload.entries = [] then .ok []
  else do
    let listing := iteratorAppendEntriesForGroup payload none .empty
    let listing ← walkRoots payload listing
    let listing ← walkOthers payload listing
    pure (appendOthers payload listing).entryOrder

end

structure EntryIterator where
  payload : Payload
  entryOrder : List Nat
  cursor : Nat

/-- A null pointer stands for every failure. -/
def vaultStoreBegin (vault : VaultHandle) : Option EntryIterator :=
  match vaultGetPayloadModel vault with
  | (.error _, _) => none
  | (.ok payload, _) =>
    match listEntries payload with
    | .error _ => none
    | .ok entryOrder => some { payload, entryOrder, cursor := 0 }

def entryIteratorNext (iterator : EntryIterator) : Option Entry × EntryIterator :=
  match iterator.entryOrder[iterator.cursor]? with
  | none => (none, iterator)
  | some index => (iterator.payload.entries[index]?, { iterator with cursor := iterator.cursor + 1 })

/-- The loop over the parents; the first argument is `depth_limit`. -/
def climbGroups (payload : Payload) (targetGroupId : CStr) : Nat → Option Group → Bool
  | 0, _ => false
  | _, none => false
  | depthLimit + 1, some group =>
    if group.parentId = targetGroupId then true
    else if group.parentId = .empty then false
    else climbGroups payload targetGroupId depthLimit (findGroupById payload group.parentId)

def groupInScope (payload : Payload) (entryGroupId targetGroupId : CStr) (includeDescendants : Bool) : Bool :=
  if entryGroupId = targetGroupId then true
  else if !includeDescendants then false
  else climbGroups payload targetGroupId (payload.groups.length + 1) (findGroupById payload entryGroupId)

def payloadFindGroupIndexById (payload : Payload) (groupId : CStr) : Option Nat :=
  if groupId = .empty then none else payload.groups.findIdx? (·.id = groupId)

/-- The loop over the indices; the first argument is `remaining`. -/
def climbIndices (payload : Payload) (scopeGroupId : CStr) : Nat → Option Nat → Bool
  | 0, _ => false
  | remaining + 1, current =>
    match current.bind (payload.groups[·]?) with
    | none => false
    | some group =>
      if group.parentId = .empty then false
      else if group.parentId = scopeGroupId then true
      else climbIndices payload scopeGroupId remaining (payloadFindGroupIndexById payload group.parentId)

def payloadEntryGroupMatchesScope (payload : Payload) (entryGroupId scopeGroupId : CStr) (includeDescendants : Bool) : Bool :=
  if scopeGroupId = .empty then true
  else if entryGroupId = .empty then false
  else if entryGroupId = scopeGroupId then true
  else if !includeDescendants then false
  else climbIndices payload scopeGroupId (payload.groups.length + 1) (payloadFindGroupIndexById payload entryGroupId)

end Hiya.Pm
