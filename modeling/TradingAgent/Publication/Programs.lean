import TradingAgent.Publication.Directory

/-!
# Private immutable files

A text is published under a name by writing it to a staging file, and linking the name to it
(`publishPrivateImmutableText`). What a publication that ended early has left is repaired by the
next call for the name: a staging file which is not linked is removed (`removeOrphanStaging`), and
one which is an alias of the name is unlinked (`repairStagingAlias`).
-/

namespace TradingAgent

open Interference FileM

def MAX_TEXT_BYTES : ℕ := 64 * 1024 * 1024

def STAGING_SUFFIX : String := ".staging"
def LOCK_SUFFIX : String := ".publication.lock"

/-- The test by which a directory is searched for the staging files of a name. -/
def isStagingOf (name candidate : FileName) : Bool :=
  ("." ++ name ++ ".").toList.isPrefixOf candidate.toList &&
    STAGING_SUFFIX.toList.isSuffixOf candidate.toList

/-- The texts that `secrets.token_hex(12)` gives. -/
def isTokenHex (s : String) : Bool :=
  s.toList.length = 24 ∧ s.toList.all fun c => c.isDigit || ('a' ≤ c && c ≤ 'f')

def stagingName (name token : String) : FileName := "." ++ name ++ "." ++ token ++ STAGING_SUFFIX

def publicationLockName (name : FileName) : FileName := "." ++ name ++ LOCK_SUFFIX

/-- `require_same_file` -/
def requireSameFile (expected found : Inode) : FileM Unit :=
  if expected ≠ found then throw .invalid else pure ()

def openPrivateFile (name : FileName) (links : List ℕ) : FileM Inode := do
  let i ← openFile name
  let metadata ← fstat i
  if metadata.links ∉ links then throw .invalid else pure i

/-- `_read_text`: the loop that reads the file is one call. -/
def readText (i : Inode) : FileM Content := do
  let before ← fstat i
  if MAX_TEXT_BYTES < before.size then
    throw .invalid
  else
    let content ← read i
    if MAX_TEXT_BYTES < content.length then
      throw .invalid
    else
      let after ← fstat i
      if content.length ≠ before.size ∨ before.size ≠ after.size
          ∨ before.changes ≠ after.changes then
        throw .invalid
      else
        pure content

def requireFinalFile (name : FileName) (expected : Inode) : FileM Unit := do
  let final ← openPrivateFile name [1]
  requireSameFile expected final

/-- The candidates that are names of an inode. -/
def stagingMatches (i : Inode) : List FileName → FileM (List FileName)
  | [] => pure []
  | candidate :: candidates => do
    let (found, _) ← stat candidate
    let rest ← stagingMatches i candidates
    pure (if found = i then candidate :: rest else rest)

def repairStagingAlias (i : Inode) (name : FileName) : FileM Unit := do
  let names ← listdir
  let found ← stagingMatches i (names.filter (isStagingOf name))
  match found with
  | [candidate] =>
    unlink candidate
    let metadata ← fstat i
    if metadata.links ≠ 1 then throw .invalid else pure ()
  | _ => throw .invalid

/-- Removes the alias of a file with two links. -/
def repairIfAliased (i : Inode) (name : FileName) : FileM Unit := do
  let metadata ← fstat i
  if metadata.links = 2 then repairStagingAlias i name else pure ()

def requireExisting (name : FileName) (payload : Content) : FileM (Option Bool) := do
  let opened ← tryExcept (do
      let i ← openPrivateFile name [1, 2]
      pure (some i)) .fileNotFound (pure none)
  match opened with
  | none => pure none
  | some i =>
    repairIfAliased i name
    let content ← readText i
    if content ≠ payload then
      throw .invalid
    else
      requireFinalFile name i
      pure (some false)

/-- Removes the candidates, which must be files with one link. -/
def removeCandidates : List FileName → FileM Unit
  | [] => pure ()
  | candidate :: candidates => do
    let (_, metadata) ← stat candidate
    if metadata.links ≠ 1 then
      throw .invalid
    else
      unlink candidate
      removeCandidates candidates

def removeOrphanStaging (name : FileName) : FileM Unit := do
  let names ← listdir
  removeCandidates (names.filter (isStagingOf name))

def writeAll (i : Inode) : List Content → FileM Unit
  | [] => pure ()
  | bytes :: rest => do
    write i bytes
    writeAll i rest

/-- The staging file is written, linked to the name, and unlinked. -/
def linkStaging (name stage : FileName) (i : Inode) (pieces : List Content) : FileM Bool := do
  writeAll i pieces
  link stage name
  let published ← openPrivateFile name [1, 2]
  requireSameFile i published
  unlink stage
  let metadata ← fstat i
  if metadata.links ≠ 1 then
    throw .invalid
  else
    requireFinalFile name i
    pure true

/-- Publishes a payload in the pieces in which it is written. -/
def publishLocked (name token : String) (pieces : List Content) : FileM Bool := do
  let existing ← requireExisting name pieces.flatten
  match existing with
  | some created => pure created
  | none =>
    removeOrphanStaging name
    let stage := stagingName name token
    let i ← create stage
    tryFinally
      (tryExcept (linkStaging name stage i pieces) .fileExists do
        let existing ← requireExisting name pieces.flatten
        match existing with
        | none => throw .invalid
        | some created => pure created)
      (tryExcept (unlink stage) .fileNotFound (pure ()))

def publishPrivateImmutableText (name token : String) (pieces : List Content) : FileM Bool :=
  if name = "" ∨ pieces.flatten = [] then
    throw .invalid
  else do
    lock name
    tryFinally (publishLocked name token pieces) (unlock name)

/-- The read of a file that is open, under the lock of its name. -/
def readLocked (i : Inode) (name : FileName) : FileM Content := do
  repairIfAliased i name
  let content ← readText i
  requireFinalFile name i
  pure content

def readPrivateText (name : FileName) : FileM Content :=
  if name = "" then
    throw .invalid
  else do
    let i ← openPrivateFile name [1, 2]
    lock name
    tryFinally (readLocked i name) (unlock name)

/-! ## Calls -/

/-- A call of a process: the token and the pieces are those of its staging file. -/
inductive FileRequest
  | publish (name token : String) (pieces : List Content)
  | read (name : FileName)
  deriving DecidableEq, Repr

def FileRequest.name : FileRequest → FileName
  | publish name _ _ | read name => name

inductive FileAnswer
  | created (created : Bool)
  | text (content : Content)
  deriving DecidableEq, Repr

/-- The answer to a call, if it does not raise `InvalidPrivateImmutableFileError`. -/
def answer {α : Type} (f : α → FileAnswer) (x : FileM α) : FileProgram (Option FileAnswer) :=
  x.run >>= fun
    | .ok a => .pure (some (f a))
    | .error _ => .pure none

def FileRequest.program : FileRequest → FileProgram (Option FileAnswer)
  | publish name token pieces => answer .created (publishPrivateImmutableText name token pieces)
  | read name => answer .text (readPrivateText name)

/-- Processes that publish and read files of one directory. -/
def publication : Machine FileRequest FsCall FsCall.Response Directory (Option FileAnswer) where
  perform := Directory.perform
  program := FileRequest.program
  release := Directory.release

end TradingAgent
