import TradingAgent.Library.Interference

/-!
# A directory of private files

A directory maps names to inodes, and several processes make calls on it (`Directory.perform`),
each of which is answered at once. All files are regular ones of one user with one mode. A text
stands for its UTF-8 bytes.

A publication is locked by the name of its target: the lock is advisory, and is released when the
process that holds it ends.
-/

namespace TradingAgent

open Interference

abbrev Inode := ℕ
abbrev FileName := String
abbrev Content := List UInt8

/-- What an inode holds: its bytes, and how often it changed (its times of change). -/
structure InodeData where
  content : Content := []
  changes : ℕ := 0
  deriving DecidableEq, Repr

/-- A directory, with the data of all inodes there ever were, and the locks that are held. -/
structure Directory where
  entries : List (FileName × Inode) := []
  inodes : List InodeData := []
  locks : List (FileName × Pid) := []
  deriving DecidableEq, Repr

/-- What `os.stat` says of an inode. -/
structure FileStat where
  links : ℕ
  size : ℕ
  changes : ℕ
  deriving DecidableEq, Repr

inductive FsError
  | fileNotFound
  | fileExists
  /-- `InvalidPrivateImmutableFileError` -/
  | invalid
  deriving DecidableEq, Repr

inductive FsCall
  | openFile (name : FileName)
  | fstat (inode : Inode)
  | stat (name : FileName)
  | listdir
  /-- `os.open` with `O_CREAT | O_EXCL`. -/
  | create (name : FileName)
  | write (inode : Inode) (bytes : Content)
  | read (inode : Inode)
  | link (src dst : FileName)
  | unlink (name : FileName)
  /-- `fcntl.flock` of the lock file of a name. -/
  | lock (name : FileName)
  | unlock (name : FileName)

abbrev FsCall.Response : FsCall → Type
  | openFile _ | create _ => Except FsError Inode
  | fstat _ => FileStat
  | stat _ => Except FsError (Inode × FileStat)
  | listdir => List FileName
  | link _ _ | unlink _ => Except FsError Unit
  | read _ => Content
  | write _ _ | lock _ | unlock _ => Unit

namespace Directory

/-- The inode of a name. -/
def lookup (d : Directory) (name : FileName) : Option Inode :=
  (d.entries.find? (·.1 = name)).map (·.2)

def data (d : Directory) (i : Inode) : InodeData := d.inodes[i]?.getD {}

def fileStat (d : Directory) (i : Inode) : FileStat where
  links := (d.entries.filter (·.2 = i)).length
  size := (d.data i).content.length
  changes := (d.data i).changes

def addEntry (d : Directory) (name : FileName) (i : Inode) : Directory :=
  { d with entries := d.entries ++ [(name, i)] }

def removeEntry (d : Directory) (name : FileName) : Directory :=
  { d with entries := d.entries.filter (·.1 ≠ name) }

def addInode (d : Directory) : Directory := { d with inodes := d.inodes ++ [{}] }

/-- Bytes are appended to a file, and the times of its inode change. -/
def change (d : Directory) (i : Inode) (bytes : Content) : Directory :=
  { d with
    inodes := d.inodes.modify i fun data =>
      ⟨data.content ++ bytes, data.changes + 1⟩ }

/-- A call of a process, and the answer to it. The call for a lock that is held is not answered. -/
def perform (pid : Pid) : (c : FsCall) → Directory → Option (c.Response × Directory)
  | .openFile name, d =>
    match d.lookup name with
    | none => some (.error .fileNotFound, d)
    | some i => some (.ok i, d)
  | .fstat i, d => some (d.fileStat i, d)
  | .stat name, d =>
    match d.lookup name with
    | none => some (.error .fileNotFound, d)
    | some i => some (.ok (i, d.fileStat i), d)
  | .listdir, d => some (d.entries.map (·.1), d)
  | .create name, d =>
    match d.lookup name with
    | some _ => some (.error .fileExists, d)
    | none => some (.ok d.inodes.length, d.addInode.addEntry name d.inodes.length)
  | .write i bytes, d => some ((), d.change i bytes)
  | .read i, d => some ((d.data i).content, d)
  | .link src dst, d =>
    match d.lookup src, d.lookup dst with
    | none, _ => some (.error .fileNotFound, d)
    | some _, some _ => some (.error .fileExists, d)
    | some i, none => some (.ok (), (d.addEntry dst i).change i [])
  | .unlink name, d =>
    match d.lookup name with
    | none => some (.error .fileNotFound, d)
    | some i => some (.ok (), (d.removeEntry name).change i [])
  | .lock name, d =>
    if d.locks.any (·.1 = name) then none
    else some ((), { d with locks := d.locks ++ [(name, pid)] })
  | .unlock name, d => some ((), { d with locks := d.locks.filter (· ≠ (name, pid)) })

/-- The locks of a process that ends are released. -/
def release (pid : Pid) (d : Directory) : Directory :=
  { d with locks := d.locks.filter (·.2 ≠ pid) }

end Directory

/-! ## Programs -/

abbrev FileProgram := Program FsCall FsCall.Response

/-- A program that may raise. -/
abbrev FileM := ExceptT FsError FileProgram

namespace FileM

variable {α : Type}

def openFile (name : FileName) : FileM Inode := ExceptT.mk (.call (.openFile name) .pure)
def fstat (i : Inode) : FileM FileStat := ExceptT.mk (.call (.fstat i) fun r => .pure (.ok r))
def stat (name : FileName) : FileM (Inode × FileStat) := ExceptT.mk (.call (.stat name) .pure)
def listdir : FileM (List FileName) := ExceptT.mk (.call .listdir fun r => .pure (.ok r))
def create (name : FileName) : FileM Inode := ExceptT.mk (.call (.create name) .pure)

def write (i : Inode) (bytes : Content) : FileM Unit :=
  ExceptT.mk (.call (.write i bytes) fun r => .pure (.ok r))

def read (i : Inode) : FileM Content := ExceptT.mk (.call (.read i) fun r => .pure (.ok r))
def link (src dst : FileName) : FileM Unit := ExceptT.mk (.call (.link src dst) .pure)
def unlink (name : FileName) : FileM Unit := ExceptT.mk (.call (.unlink name) .pure)
def lock (name : FileName) : FileM Unit := ExceptT.mk (.call (.lock name) fun r => .pure (.ok r))

def unlock (name : FileName) : FileM Unit :=
  ExceptT.mk (.call (.unlock name) fun r => .pure (.ok r))

/-- `try` with one `except` clause. -/
def tryExcept (x : FileM α) (error : FsError) (handler : FileM α) : FileM α :=
  ExceptT.mk (x.run >>= fun
    | .ok a => .pure (.ok a)
    | .error e => if e = error then handler.run else .pure (.error e))

/-- `try` with a `finally` clause. -/
def tryFinally (x : FileM α) (last : FileM Unit) : FileM α :=
  ExceptT.mk (x.run >>= fun r => last.run >>= fun
    | .ok () => .pure r
    | .error e => .pure (.error e))

end FileM

end TradingAgent
