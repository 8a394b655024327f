/-
The constants of elf.h, the program header record, and the user address space
the loader lays out.
-/
import Fortress.Lib.Memory

namespace Fortress.Elf

open Codec

def ET_EXEC : Nat := 2
def EM_X86_64 : Nat := 62
def EV_CURRENT : Nat := 1

def PT_LOAD : Nat := 1
def PT_DYNAMIC : Nat := 2
def PT_INTERP : Nat := 3
def PT_TLS : Nat := 7

def PF_X : Nat := 0x1
def PF_W : Nat := 0x2

def MAX_ELF_PHNUM : Nat := 16
def MAX_ELF_PAGES : Nat := 1024
def USER_SPACE_LIMIT : Nat := 0x0000800000000000

def USER_STACK_PAGES : Nat := 4
def USER_STACK_TOP_VIRT : Nat := 0x00007FFFF0001000
def USER_STACK_PAGE_VIRT : Nat := 0x00007FFFF0000000
def USER_STACK_BOTTOM_VIRT : Nat := USER_STACK_TOP_VIRT - USER_STACK_PAGES * PAGE_SIZE
def USER_STACK_GUARD_VIRT : Nat := USER_STACK_BOTTOM_VIRT - PAGE_SIZE
def USER_SIGRESTORER_VIRT : Nat := USER_STACK_GUARD_VIRT - PAGE_SIZE
def USER_SIGRESTORER_SIZE : Nat := 4096

/-- The page an address lies in. -/
def pageOf (a : Nat) : Nat := a / PAGE_SIZE * PAGE_SIZE

structure Phdr where
  type : Nat
  flags : Nat
  offset : Nat
  vaddr : Nat
  filesz : Nat
  memsz : Nat

/-- A program header from the bytes it starts at. -/
def Phdr.ofBytes (p : Bytes) : Phdr where
  type := fromLe (slice p 0 4)
  flags := fromLe (slice p 4 4)
  offset := fromLe (slice p 8 8)
  vaddr := fromLe (slice p 16 8)
  filesz := fromLe (slice p 32 8)
  memsz := fromLe (slice p 40 8)

/-- The first and the last page of a segment. -/
def Phdr.start (p : Phdr) : Nat := pageOf p.vaddr
def Phdr.end (p : Phdr) : Nat := pageOf (p.vaddr + p.memsz - 1)

end Fortress.Elf
