import DemandPaging.Demo
import DemandPaging.Drill.Device
import DemandPaging.Drill.Eviction
import DemandPaging.Drill.File
import DemandPaging.Drill.PageTable
import DemandPaging.Main
import DemandPaging.Proofs.AccessBounds
import DemandPaging.Proofs.Accessing
import DemandPaging.Proofs.Additions
import DemandPaging.Proofs.Backing
import DemandPaging.Proofs.Balance
import DemandPaging.Proofs.Bitmap
import DemandPaging.Proofs.Calls
import DemandPaging.Proofs.Claiming
import DemandPaging.Proofs.CleanPages
import DemandPaging.Proofs.Coherence
import DemandPaging.Proofs.Content
import DemandPaging.Proofs.Copying
import DemandPaging.Proofs.CountedRuns
import DemandPaging.Proofs.Discarding
import DemandPaging.Proofs.Effects
import DemandPaging.Proofs.EvictionOrder
import DemandPaging.Proofs.FailedClaims
import DemandPaging.Proofs.FailedForks
import DemandPaging.Proofs.FailedReads
import DemandPaging.Proofs.FatalErrors
import DemandPaging.Proofs.FaultCounts
import DemandPaging.Proofs.FaultVerdicts
import DemandPaging.Proofs.Faulting
import DemandPaging.Proofs.FileChanges
import DemandPaging.Proofs.FileCoherence
import DemandPaging.Proofs.Files
import DemandPaging.Proofs.FlagAllocation
import DemandPaging.Proofs.FlatMemory
import DemandPaging.Proofs.Flushing
import DemandPaging.Proofs.Forking
import DemandPaging.Proofs.HandleAccounts
import DemandPaging.Proofs.HandleBalance
import DemandPaging.Proofs.HandleConservation
import DemandPaging.Proofs.HandleCopies
import DemandPaging.Proofs.Handles
import DemandPaging.Proofs.Handouts
import DemandPaging.Proofs.Heeding
import DemandPaging.Proofs.HeedingCalls
import DemandPaging.Proofs.History
import DemandPaging.Proofs.HolderChanges
import DemandPaging.Proofs.Holdings
import DemandPaging.Proofs.Isolation
import DemandPaging.Proofs.KeptPages
import DemandPaging.Proofs.MappedFiles
import DemandPaging.Proofs.MappingRequests
import DemandPaging.Proofs.Mappings
import DemandPaging.Proofs.Marks
import DemandPaging.Proofs.MirroredCalls
import DemandPaging.Proofs.Mirroring
import DemandPaging.Proofs.Moves
import DemandPaging.Proofs.Ownership
import DemandPaging.Proofs.PageLives
import DemandPaging.Proofs.Proceeds
import DemandPaging.Proofs.Program
import DemandPaging.Proofs.Regions
import DemandPaging.Proofs.Removals
import DemandPaging.Proofs.Replacement
import DemandPaging.Proofs.Reserving
import DemandPaging.Proofs.Roster
import DemandPaging.Proofs.Runs
import DemandPaging.Proofs.SecondChance
import DemandPaging.Proofs.SegmentContent
import DemandPaging.Proofs.SegmentReads
import DemandPaging.Proofs.SegmentRequests
import DemandPaging.Proofs.SharedFiles
import DemandPaging.Proofs.ShortFiles
import DemandPaging.Proofs.SlotTransfers
import DemandPaging.Proofs.Slots
import DemandPaging.Proofs.Sound
import DemandPaging.Proofs.StackGrowth
import DemandPaging.Proofs.SwapTraffic
import DemandPaging.Proofs.Tidy
import DemandPaging.Proofs.Transit
import DemandPaging.Proofs.Turn
import DemandPaging.Proofs.Unmapping
import DemandPaging.Proofs.UserMemory
import DemandPaging.Proofs.Views
import DemandPaging.Proofs.Withdrawing
import DemandPaging.Report.Digest
import DemandPaging.Scenario.Session
