import KvStore.Protocol.Codec
import Mathlib.Logic.Function.Basic

/-!
# Files

A file is its bytes. A write past the end fills the gap with zeros, as `pwrite`
does. Whether the `n`-th request to change a file or to make it durable fails is
given in advance, as for memory.
-/

namespace KvStore

/-- The largest value of `off_t` and of `long long`. -/
def offMax : Nat := 2 ^ 63 - 1

inductive Path
  | commandsAof
  | appendonlyAof
  | snapshotBin
  | snapshotDb
  /-- What a primary sends to a replica. -/
  | replicationSnapshot
  /-- What a replica has received of it. -/
  | replicationTemp
  deriving DecidableEq, Repr

abbrev Disk := Path → Option Bytes

def Disk.write (disk : Disk) (path : Path) (file : Bytes) : Disk := Function.update disk path file

@[simp] theorem Disk.write_self (disk : Disk) (path : Path) (file : Bytes) :
    disk.write path file path = some file := Function.update_self ..

@[simp] theorem Disk.write_other (disk : Disk) (file : Bytes) (h : path' ≠ path) :
    disk.write path file path' = disk path' := Function.update_of_ne h ..

def Disk.unlink (disk : Disk) (path : Path) : Disk := Function.update disk path none

/-- What a process asks the kernel to do with its files. -/
inductive FileRequest
  | write (path : Path) (offset : Nat) (data : Bytes)
  | truncate (path : Path) (length : Nat)
  | sync (path : Path)
  | close (path : Path)
  | rename (old new : Path)
  deriving DecidableEq, Repr

/-- How a request fails: the bytes that were written all the same, and whether
the ring it went through had to be closed. -/
structure FileFailure where
  written : Nat
  closesRing : Bool
  deriving DecidableEq, Repr

/-- The requests so far, and how the `n`-th of them fails. -/
structure FileIo where
  fails : Nat → Option FileFailure
  requests : List FileRequest

namespace FileIo

def start (fails : Nat → Option FileFailure) : FileIo := ⟨fails, []⟩

def CanFail (io : FileIo) : Prop := ∃ n, io.fails n ≠ none

def Grants (io : FileIo) (n : Nat) : Prop := ∀ i < n, io.fails (io.requests.length + i) = none

def ask (io : FileIo) (request : FileRequest) : FileIo := { io with requests := io.requests ++ [request] }

variable {io : FileIo}

theorem Grants.of_not_canFail (h : ¬io.CanFail) (n : Nat) : io.Grants n :=
  fun _ _ => not_not.mp fun hno => h ⟨_, hno⟩

theorem not_canFail_start : ¬(start fun _ => none).CanFail := by
  rintro ⟨n, hn⟩
  exact hn rfl

theorem grants_succ (request : FileRequest) (n : Nat) :
    io.Grants (n + 1) ↔ io.fails io.requests.length = none ∧ (io.ask request).Grants n := by
  constructor
  · intro h
    refine ⟨h 0 (Nat.succ_pos n), fun i hi => ?_⟩
    have hnext := h (i + 1) (Nat.succ_lt_succ hi)
    simpa only [ask, List.length_append, List.length_singleton, Nat.add_assoc, Nat.add_comm 1] using hnext
  · rintro ⟨hzero, h⟩ i hi
    cases i with
    | zero => exact hzero
    | succ i =>
      have hnext := h i (Nat.lt_of_succ_lt_succ hi)
      simpa only [ask, List.length_append, List.length_singleton, Nat.add_assoc, Nat.add_comm 1] using hnext

end FileIo

/-- The file after writing `data` at `offset`. -/
def pwrite (file : Bytes) (offset : Nat) (data : Bytes) : Bytes :=
  file.take offset ++ List.replicate (offset - file.length) 0 ++ data ++
    file.drop (offset + data.length)

theorem pwrite_end (file data : Bytes) : pwrite file file.length data = file ++ data := by
  simp [pwrite]

theorem length_pwrite (file : Bytes) (offset : Nat) (data : Bytes) :
    (pwrite file offset data).length = max file.length (offset + data.length) := by
  simp only [pwrite, List.length_append, List.length_take, List.length_replicate, List.length_drop]
  omega

theorem getElem?_pwrite (file : Bytes) (offset : Nat) (data : Bytes) (i : Nat) :
    (pwrite file offset data)[i]? =
      if i < offset then if i < file.length then file[i]? else some 0
      else if i < offset + data.length then data[i - offset]? else file[i]? := by
  have hstart : (file.take offset ++ List.replicate (offset - file.length) (0 : UInt8)).length = offset := by
    simp only [List.length_append, List.length_take, List.length_replicate]
    omega
  rw [pwrite]
  by_cases hlt : i < offset
  · rw [if_pos hlt, List.append_assoc, List.getElem?_append_left (by omega)]
    by_cases hin : i < file.length
    · rw [if_pos hin, List.getElem?_append_left (by simp only [List.length_take]; omega),
        List.getElem?_take_of_lt hlt]
    · rw [if_neg hin, List.getElem?_append_right (by simp only [List.length_take]; omega),
        List.getElem?_replicate, if_pos (by simp only [List.length_take]; omega)]
  · rw [if_neg hlt, List.append_assoc, List.getElem?_append_right (by omega), hstart]
    by_cases hin : i < offset + data.length
    · rw [if_pos hin, List.getElem?_append_left (by omega)]
    · rw [if_neg hin, List.getElem?_append_right (by omega), List.getElem?_drop]
      congr 1
      omega

/-- The file cut or filled with zeros to `length` bytes. -/
def ftruncate (file : Bytes) (length : Nat) : Bytes :=
  file.take length ++ List.replicate (length - file.length) 0

@[simp] theorem length_ftruncate (file : Bytes) (length : Nat) :
    (ftruncate file length).length = length := by
  simp [ftruncate]
  omega

end KvStore
