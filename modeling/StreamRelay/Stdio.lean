import Mathlib.Logic.Function.Basic

/-! Buffered output files and the directory that names them. A write may leave
any part of the pending data in the buffer, and a call that fails loses what it
does not pass on, so success of one call says nothing about an earlier one. -/
namespace StreamRelay.Stdio

/-- What the library answers to one write or close: its result, and how much of
the pending data it does not pass on to the file. -/
structure Answer where
  ok : Bool
  kept : Nat
  deriving DecidableEq, Repr

def Answer.clean : Answer := ⟨true, 0⟩

/-- A success that holds nothing back. -/
def Answer.Wrote (answer : Answer) : Prop := answer.ok = true → answer.kept = 0

structure File (Byte : Type*) where
  disk : List Byte
  buffer : List Byte
  deriving DecidableEq, Repr

namespace File

variable {Byte : Type*}

def empty : File Byte := ⟨[], []⟩

/-- Everything handed to the library for this file. -/
def contents (file : File Byte) : List Byte := file.disk ++ file.buffer

def write (file : File Byte) (data : List Byte) (answer : Answer) : File Byte :=
  let pending := file.buffer ++ data
  let passed := pending.length - answer.kept
  ⟨file.disk ++ pending.take passed, if answer.ok then pending.drop passed else []⟩

/-- Closing flushes; when it reports failure the tail it kept is gone. -/
def close (file : File Byte) (answer : Answer) : File Byte :=
  ⟨file.disk ++ file.buffer.take
    (file.buffer.length - if answer.ok then 0 else answer.kept), []⟩

@[simp] theorem contents_empty : (empty : File Byte).contents = [] := rfl

theorem contents_write (file : File Byte) (data : List Byte) (answer : Answer)
    (ok : answer.ok = true) : (file.write data answer).contents = file.contents ++ data := by
  simp [write, contents, ok]

theorem disk_close (file : File Byte) (answer : Answer) (ok : answer.ok = true) :
    (file.close answer).disk = file.contents := by
  simp [close, contents, ok]

theorem disk_close_flushed (file : File Byte) (answer : Answer) (flushed : file.buffer = []) :
    (file.close answer).disk = file.contents := by
  simp [close, contents, flushed]

theorem write_flushed (file : File Byte) (data : List Byte) (answer : Answer)
    (wrote : answer.Wrote) (ok : answer.ok = true) : (file.write data answer).buffer = [] := by
  simp [write, wrote ok]

end File

/-- Files are numbered in the order they are opened; the directory maps a name
to the file it denotes now. -/
structure Store (Name Byte : Type*) where
  files : Nat → File Byte
  next : Nat
  dir : Name → Option Nat

namespace Store

variable {Name Byte : Type*}

def empty : Store Name Byte := ⟨fun _ => .empty, 0, fun _ => none⟩

def write (store : Store Name Byte) (file : Nat) (data : List Byte) (answer : Answer) :
    Store Name Byte :=
  {store with files := Function.update store.files file ((store.files file).write data answer)}

def close (store : Store Name Byte) (file : Nat) (answer : Answer) : Store Name Byte :=
  {store with files := Function.update store.files file ((store.files file).close answer)}

/-- The bytes a name denotes on disk. -/
def bytes (store : Store Name Byte) (name : Name) : Option (List Byte) :=
  (store.dir name).map fun file => (store.files file).disk

variable (store : Store Name Byte) (name src dst : Name) (file other : Nat)
  (data : List Byte) (answer : Answer)

@[simp] theorem write_next : (store.write file data answer).next = store.next := rfl
@[simp] theorem close_next : (store.close file answer).next = store.next := rfl
@[simp] theorem write_dir : (store.write file data answer).dir = store.dir := rfl
@[simp] theorem close_dir : (store.close file answer).dir = store.dir := rfl

@[simp] theorem write_file_self :
    (store.write file data answer).files file = (store.files file).write data answer := by
  simp [write]

theorem write_file_other (apart : other ≠ file) :
    (store.write file data answer).files other = store.files other := by
  simp [write, apart]

@[simp] theorem close_file_self :
    (store.close file answer).files file = (store.files file).close answer := by
  simp [close]

theorem close_file_other (apart : other ≠ file) :
    (store.close file answer).files other = store.files other := by
  simp [close, apart]

variable [DecidableEq Name]

/-- Opening for writing truncates: the name denotes a new, empty file. -/
def create (store : Store Name Byte) (name : Name) : Store Name Byte :=
  ⟨Function.update store.files store.next .empty, store.next + 1,
    Function.update store.dir name (some store.next)⟩

/-- Renaming replaces whatever the destination denoted. -/
def rename (store : Store Name Byte) (src dst : Name) : Store Name Byte :=
  {store with dir := Function.update (Function.update store.dir dst (store.dir src)) src none}

def unlink (store : Store Name Byte) (name : Name) : Store Name Byte :=
  {store with dir := Function.update store.dir name none}

@[simp] theorem create_next : (store.create name).next = store.next + 1 := rfl
@[simp] theorem rename_next : (store.rename src dst).next = store.next := rfl
@[simp] theorem unlink_next : (store.unlink name).next = store.next := rfl
@[simp] theorem rename_files : (store.rename src dst).files = store.files := rfl
@[simp] theorem unlink_files : (store.unlink name).files = store.files := rfl

@[simp] theorem create_dir_self : (store.create name).dir name = some store.next := by
  simp [create]

theorem create_dir_other (apart : src ≠ name) : (store.create name).dir src = store.dir src := by
  simp [create, apart]

@[simp] theorem create_file_self : (store.create name).files store.next = .empty := by
  simp [create]

theorem create_file_other (apart : other ≠ store.next) :
    (store.create name).files other = store.files other := by
  simp [create, apart]

theorem rename_dir_other (src_apart : name ≠ src) (dst_apart : name ≠ dst) :
    (store.rename src dst).dir name = store.dir name := by
  simp [rename, src_apart, dst_apart]

theorem unlink_dir_other (apart : src ≠ name) : (store.unlink name).dir src = store.dir src := by
  simp [unlink, apart]

end Store

end StreamRelay.Stdio
