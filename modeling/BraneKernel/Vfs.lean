import BraneKernel.Lib.Bytes

namespace BraneKernel

inductive NodeType
  | file | directory | device
  deriving DecidableEq

inductive VfsError
  | notFound | alreadyExists | notADirectory | notAFile | noSpace | invalidPath | mountFull
  | notMounted | fdTableFull | badFd | ioError
  deriving DecidableEq

def maxName : ℕ := 64

structure NodeInfo where
  name : Bytes
  nodeType : NodeType
  size : ℕ
  inode : ℕ
  deriving DecidableEq

structure DirEntry where
  name : Bytes
  nodeType : NodeType
  deriving DecidableEq

end BraneKernel
