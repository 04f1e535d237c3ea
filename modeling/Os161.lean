import Os161.Thread.Basic
import Os161.Thread.Ops
import Os161.Thread.Step
import Os161.Thread.Spec
import Os161.Thread.Partition
import Os161.Thread.Run
import Os161.Thread.Process
import Os161.Lib.ByteMem
import Os161.Exec.Args
import Os161.Exec.Layout
import Os161.Lib.Sparse
import Os161.Lib.Word
import Os161.Vm.Basic
import Os161.Vm.Pte
import Os161.Vm.Frames
import Os161.Vm.Fault
import Os161.Vm.Addrspace
import Os161.Lib.Loop
import Os161.Vm.Spec
import Os161.Vm.Copy
import Os161.Vm.Swap
import Os161.Vm.FaultSpec
import Os161.Vm.Destroy
import Os161.Lib.Sys
import Os161.Synch.Basic
import Os161.Synch.Calls
import Os161.Synch.World
import Os161.Asst1.Basic
import Os161.Asst1.CatSem
import Os161.Asst1.CatLock
import Os161.Asst1.Stoplight
import Os161.Fs.Vfs
import Os161.Lib.Run
import Os161.Fs.Sfs.Basic
import Os161.Syscall.Basic
import Os161.Exec.Copyinout
import Os161.Syscall.Console
import Os161.Vm.Kpages
import Os161.Vm.FaultRange
import Os161.Exec.LoadElf
import Os161.Syscall.Execv
import Os161.Syscall.Fork
import Os161.Kern.Bitmap
import Os161.Kern.Array
import Os161.Kern.Queue
import Os161.Vm.Evict
import Os161.Libc.Printf
import Os161.Libc.PrintfSpec
import Os161.Libc.Malloc
import Os161.Libc.MallocHeap
import Os161.Libc.MallocFree
import Os161.Libc.MallocRun
import Os161.Fs.Sfs.Bmap
import Os161.Fs.Sfs.Dir
import Os161.Fs.Sfs.Vnode
