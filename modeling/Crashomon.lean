import Crashomon.Base.Bytes
import Crashomon.Base.Memory
import Crashomon.Base.Text
import Crashomon.Daemon.Status
import Crashomon.Daemon.MinidumpPatcher
import Crashomon.Proofs.PatcherBounds
import Crashomon.Proofs.PatcherFile
import Crashomon.Proofs.PatcherFrame
import Crashomon.Base.PurePath
import Crashomon.Base.Python
import Crashomon.Tools.Patchdmp
import Crashomon.Proofs.PatcherAgreement
import Crashomon.Base.Writes
import Crashomon.Proofs.PatchdmpSteps
import Crashomon.Proofs.PatchdmpRun
import Crashomon.Tools.PatchdmpCli
import Crashomon.Proofs.PatchdmpPreview
import Crashomon.Daemon.DiskManager
import Crashomon.Daemon.MinidumpReader
import Crashomon.Daemon.Worker
import Crashomon.Daemon.Watcher
import Crashomon.Proofs.RateLimit
import Crashomon.Proofs.PruneSafety
import Crashomon.Tools.Symbolizer
import Crashomon.Proofs.AnnotationAgreement
import Crashomon.Base.PythonText
import Crashomon.Base.Regex
import Crashomon.Tools.Report
import Crashomon.Web.Models
import Crashomon.Proofs.ReportSignature
import Crashomon.Base.FileTree
import Crashomon.Base.MakeDirectories
import Crashomon.Web.SymbolStore
import Crashomon.Proofs.StoreContainment
import Crashomon.Proofs.WorkerStages
import Crashomon.Proofs.WorkerWakeups
import Crashomon.Base.Transition
import Crashomon.Daemon.RunWorker
import Crashomon.Base.LongestSuffix
import Crashomon.Proofs.DirectoryListing
import Crashomon.Proofs.PruneSuffix
import Crashomon.Proofs.QueueOrder
import Crashomon.Base.Utf8
import Crashomon.Proofs.AnnotationRoundTrip
import Crashomon.Daemon.CrashSocket
import Crashomon.Proofs.SocketOwnership
import Crashomon.Lib.Tags
import Crashomon.Proofs.AbortMessageLoss
import Crashomon.Proofs.ExportNames
import Crashomon.Web.App
import Crashomon.Web.Uploads
import Crashomon.Proofs.TypedReports
import Crashomon.Proofs.UploadFiles
import Crashomon.Cmake.StoreSym
import Crashomon.Tools.Syms
import Crashomon.Proofs.StoreAgreement
import Crashomon.Daemon.ElfBuildId
import Crashomon.Tools.ElfBuildId
import Crashomon.Base.ElfNotes
import Crashomon.Proofs.ElfReads
import Crashomon.Proofs.ElfAgreement
import Crashomon.Proofs.ElfDivergence
import Crashomon.Proofs.ElfHeaders
import Crashomon.Base.Json
import Crashomon.Tools.StackwalkJson
import Crashomon.Tools.Analyze
import Crashomon.Base.PyShape
import Crashomon.Proofs.StackwalkShape
import Crashomon.Proofs.StackwalkReport
import Crashomon.Web.CrashUpload
import Crashomon.Proofs.CrashUploads
import Crashomon.Proofs.ReportFrames
import Crashomon.Proofs.PruneFailures
import Crashomon.Proofs.PrunedTotals
import Crashomon.Proofs.AnnotationRecords
import Crashomon.Proofs.ReportMeta
import Crashomon.Proofs.RecordedPaths
import Crashomon.Proofs.ElfBounds
import Crashomon.Base.Disk
import Crashomon.Base.TreeWalks
import Crashomon.Base.DiskLinks
import Crashomon.Base.PathText
import Crashomon.Web.SymbolRoutes
import Crashomon.Proofs.SymbolPaths
import Crashomon.Proofs.SymbolServing
import Crashomon.Base.DiskRemoval
import Crashomon.Proofs.SymbolDeletion
import Crashomon.Proofs.SymbolStoring
import Crashomon.Proofs.SymbolMap
import Crashomon.Base.Numerals
import Crashomon.Daemon.Arguments
import Crashomon.Lib.Config
import Crashomon.Proofs.Limits
import Crashomon.Base.Base64
import Crashomon.Web.Auth
import Crashomon.Proofs.BasicAuth
import Crashomon.Proofs.SocketLifetime
import Crashomon.Proofs.CrashGroups
import Crashomon.Tools.SymsCli
import Crashomon.Tools.Sysroot
import Crashomon.Proofs.StorePrune
import Crashomon.Proofs.StoreReads
import Crashomon.Proofs.StoreRuns
import Crashomon.Proofs.SysrootSearch
import Crashomon.Proofs.FrameModules
import Crashomon.Base.Loop
import Crashomon.Proofs.ElfNoteRecords
import Crashomon.Proofs.TextHash
import Crashomon.Base.CStrings
import Crashomon.Daemon.InotifyBuffer
import Crashomon.Proofs.InotifyRecords
import Crashomon.Base.Calendar
import Crashomon.Daemon.ExportPath
import Crashomon.Proofs.ExportPaths
import Crashomon.Proofs.DailyCounts
import Crashomon.Lib.Connect
import Crashomon.Proofs.ConnectRetry
import Crashomon.Web.SymbolArchive
import Crashomon.Proofs.ArchiveImport
import Crashomon.Proofs.MemberPaths
import Crashomon.Base.Descriptors
import Crashomon.Lib.Registration
import Crashomon.Proofs.RegistrationSteps
import Crashomon.Proofs.RegistrationTables
import Crashomon.Proofs.RegistrationAnswers
import Crashomon.Proofs.RegistrationMessages
import Crashomon.Proofs.HandlerLifetime
import Crashomon.Base.Pages
import Crashomon.Web.CrashPages
import Crashomon.Proofs.CrashHistory
import Crashomon.Proofs.CrashLists
import Crashomon.Web.SymbolService
import Crashomon.Proofs.SymbolService
import Crashomon.Web.Service
import Crashomon.Proofs.Service
import Crashomon.Proofs.PatcherRuns
import Crashomon.Proofs.PatchdmpReplay
