import Wondar.A64.Bits
import Wondar.A64.Machine
import Wondar.A64.Run
import Wondar.A64.SaveArea
import Wondar.Coherence
import Wondar.A64.Memory
import Wondar.Runs
import Wondar.Setting
import Wondar.Armv8
import Wondar.A64.Encoding
import Wondar.A64.PcRel
import Wondar.A64.Exit
import Wondar.Armv8.Instructions
import Wondar.Armv8.Fields
import Wondar.Armv8.Sound
import Wondar.Armv8.PcRelAddressing
import Wondar.Sys.MemRange
import Wondar.Recogniser
import Wondar.Sys.MemLayout
import Wondar.Sys.ModuleTable
import Wondar.Sys.RwPages
import Wondar.Sys.Ownership
import Wondar.Sys.PtrPath
import Wondar.Patch.Patcher
import Wondar.Patch.Replace
import Wondar.Patch.CodeBranch
import Wondar.Patch.AsmPatch
import Wondar.Hook.Pool
import Wondar.Hook.Fix
import Wondar.Hook.FixSpec
import Wondar.Hook.Impl
import Wondar.Hook.Inline
import Wondar.Hook.Log
import Wondar.Hook.Cache
import Wondar.Hook.Jump
import Wondar.Hook.Emit
import Wondar.Hook.Emission
import Wondar.Hook.BranchImm
import Wondar.Hook.CondBranch
import Wondar.Hook.AbsoluteAddr
import Wondar.Hook.LoadLit
import Wondar.Hook.Pcreladdr
import Wondar.Backpatch
import Wondar.Hook.Turn
import Wondar.Hook.Window
import Wondar.Hook.Retarget
import Wondar.Hook.References
import Wondar.Hook.Transparent
import Wondar.Hook.InlineCall
import Wondar.Program.ExceptionHandler
import Wondar.Program.SharedRecord
import Wondar.Program.TryCatch
import Wondar.Program.CatchStack
import Wondar.Search
import Wondar.Program.CrashReport
import Wondar.Hook.Guard
import Wondar.Hook.Install
import Wondar.Hook.Chain
import Wondar.Hook.Rehook
import Wondar.Hook.Compose
import Wondar.CString
import Wondar.Blocks
import Wondar.Sead.PtrArray
import Wondar.Pe.ActorBrowser
import Wondar.Pe.FSHacks
import Wondar.Pe.FsHelper
import Wondar.Pe.Log
import Wondar.Pe.LogRoom
import Wondar.Packing
import Wondar.ImguiBackend.DrawData
import Wondar.ImguiBackend.Packs
import Wondar.Interaction
import Wondar.Scopes
import Wondar.Pe.ImGui
import Wondar.Pe.MemoryEditor
import Wondar.Pe.DbgGui
import Wondar.Handles
import Wondar.ImguiBackend.ShaderBinary
import Wondar.ImguiBackend.Shaders
import Wondar.Moves
import Wondar.Reloc.Dynamic
import Wondar.Sead.PtrArrayImpl
import Wondar.Sys.ProcHandle
import Wondar.Sys.Delivery
import Wondar.Sys.Regions
import Wondar.Traced
import Wondar.Updates
import Wondar.Chains
import Wondar.Reloc.ModuleObject
import Wondar.Reloc.Symbols
import Wondar.Reloc.Binding
import Wondar.PushPop
import Wondar.Reloc.RuntimeResolve
import Wondar.Sys.Reservations
import Wondar.Sys.Virtmem
import Wondar.Sys.CacheLines
import Wondar.Reloc.Crt0
import Wondar.Edges
import Wondar.ImguiBackend.HidMappings
import Wondar.ImguiBackend.Input
import Wondar.Program.NvnImGui
import Wondar.Program.NvnFrames
import Wondar.Program.NvnPointers
import Wondar.Program.InstallHandler
import Wondar.Sys.Svc
import Wondar.Sys.SecureMonitor
import Wondar.Pe.LoadFile
