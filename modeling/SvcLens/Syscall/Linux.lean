import SvcLens.Numeral
import SvcLens.Syscall

namespace SvcLens.Syscall

-- A system call whose arguments are carried by `x0` and the registers after it. An argument has a
-- name and a note, which may be empty.
def ofRoles (name : String) (roles : List (String × String)) (returns : String) : Syscall :=
  { name
    arguments := roles.mapIdx fun i (role, note) =>
      ⟨"x" ++ Numeral.decimalOfNat i, role, if note.isEmpty then .null else .ofText note⟩
    returns }

def descriptor : String × String := ("fd", "0=stdin, 1=stdout, 2=stderr (conventional)")

def plain (name : String) : String × String := (name, "")

def linux : SyscallTable := .ofList
  [(56, ofRoles "openat"
      [("dirfd", "often AT_FDCWD = -100"), plain "pathname", plain "flags", plain "mode"]
      "fd (>=0) or -errno"),
   (57, ofRoles "close" [descriptor] "0 or -errno"),
   (62, ofRoles "lseek" [descriptor, plain "offset", plain "whence"] "new offset (>=0) or -errno"),
   (63, ofRoles "read" [descriptor, plain "buf", plain "count"] "bytes_read (>=0) or -errno"),
   (64, ofRoles "write" [descriptor, plain "buf", plain "count"] "bytes_written (>=0) or -errno"),
   (93, ofRoles "exit" [plain "status"] "(does not return)"),
   (94, ofRoles "exit_group" [plain "status"] "(does not return)"),
   (101, ofRoles "nanosleep" [plain "req", plain "rem"] "0 or -errno"),
   (129, ofRoles "kill" [plain "pid", plain "sig"] "0 or -errno"),
   (172, ofRoles "getpid" [] "pid of the caller"),
   (214, ofRoles "brk" [plain "addr"] "new program break"),
   (215, ofRoles "munmap" [plain "addr", plain "length"] "0 or -errno"),
   (221, ofRoles "execve" [plain "filename", plain "argv", plain "envp"]
      "(does not return on success) or -errno"),
   (222, ofRoles "mmap"
      [plain "addr", plain "length", plain "prot", plain "flags", plain "fd", plain "offset"]
      "mapped address or -errno")]

def standardStreams : IntMap String := .ofList [(0, "stdin"), (1, "stdout"), (2, "stderr")]

end SvcLens.Syscall
