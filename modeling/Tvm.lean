import Tvm.VM.Stream
import Tvm.VM.Executable
import Tvm.VM.RoundTrip
import Tvm.VM.Truncation
import Tvm.VM.Canonicity
import Tvm.VM.Hosts
import Tvm.VM.Disassembly
import Tvm.VM.Dialects
import Tvm.VM.Accessors
import Tvm.VM.Stats
import Tvm.SEqual.Basic
import Tvm.SEqual.Engine
import Tvm.SEqual.Eager
import Tvm.SEqual.Steps
import Tvm.SEqual.Simulation
import Tvm.SEqual.Reuse
import Tvm.SEqual.Laws
import Tvm.SEqual.Maps
import Tvm.SEqual.Transitivity
import Tvm.SEqual.Invariants
import Tvm.SEqual.Paths
import Tvm.SEqual.Mismatch
import Tvm.SEqual.AssertMode
import Tvm.SEqual.Safety
import Tvm.SEqual.Sharing
import Tvm.SEqual.Tensor
import Tvm.Runtime.LibraryModule
import Tvm.Runtime.ModuleTree
import Tvm.Runtime.Export
import Tvm.Contrib.DnnlBlas
