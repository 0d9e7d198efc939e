import Apue.Foundation.Run
import Apue.Foundation.LinkedHeap
import Apue.Printer.Workers
import Apue.Opend.PollLoop
import Apue.Foundation.Ascii
import Apue.Printer.JobNumbers
import Apue.Foundation.LocalReasoning
import Apue.Sync.MultiProcess
import Apue.Sync.FileQueue
import Apue.Foundation.AtomicObject
import Apue.Foundation.Ledger
import Apue.Foundation.LinkedCells
import Apue.Database.Library
import Apue.Database.Machine
import Apue.Database.Record
import Apue.Database.Dictionary
import Apue.Database.Lists
import Apue.Database.Logic
import Apue.Database.Rules
import Apue.Database.Operations
import Apue.Database.Calls
import Apue.Database.Layout
import Apue.Database.Concurrent
import Apue.Database.Sequential
import Apue.Database.Alone
import Apue.Database.Contents
import Apue.Database.Scan
import Apue.Database.Interleaved
import Apue.Database.Limits
import Apue.Foundation.Always
import Apue.Foundation.FileTree
import Apue.Sync.MultiThread
import Apue.Sync.SimpleRsync
import Apue.Sync.MultiProcessFiles
import Apue.Sync.PlainPrograms
import Apue.Sync.Recursions
import Apue.Sync.Traversals
import Apue.Sync.Termination
import Apue.Sync.Statistics
import Apue.Sync.ThreadCreation
import Apue.Sync.PathPairs
import Apue.Foundation.Destinations
import Apue.Foundation.RelyGuarantee
import Apue.Sync.Comparison
import Apue.Sync.Copying
import Apue.Sync.Directories
import Apue.Sync.PartialCopies
import Apue.Foundation.Tokens
import Apue.Opend.Passing
import Apue.Opend.Requests
import Apue.Opend.Conversation
import Apue.Foundation.DoublyLinked
import Apue.Printer.JobQueue
import Apue.Printer.Spool
import Apue.Printer.Status
import Apue.Foundation.CutOff
import Apue.Printer.StatusRounds
import Apue.Printer.StatusBounds
import Apue.Printer.StatusResult
import Apue.Opend.SelectLoop
import Apue.Sync.Transfers
import Apue.Sync.BufferedCopies
import Apue.Foundation.Surroundings
import Apue.TellWait.Signals
import Apue.Rot13.Completions
import Apue.Rot13.Asynchronous
import Apue.Threads.Chains
import Apue.Foundation.AtomicSteps
import Apue.Threads.AtomicReferences
import Apue.Threads.LockedReferences
import Apue.Threads.LockedOperations
import Apue.Threads.Interleavings
import Apue.Foundation.SemaphoreSets
import Apue.Semaphore.Processes
import Apue.Semaphore.Counting
import Apue.Semaphore.Calls
import Apue.Semaphore.Users
import Apue.Semaphore.Guarantees
import Apue.Sync.Forks
import Apue.Sync.Descriptors
import Apue.Sync.SimpleCopies
import Apue.Sync.PairedReads
import Apue.Sync.MakingDirectories
import Apue.Sync.Arguments
import Apue.Foundation.Expansion
import Apue.Sync.Visits
import Apue.Sync.SingleFiles
import Apue.Printer.Submission
import Apue.Sync.Attributes
import Apue.Database.IndexFile
import Apue.Database.Opening
import Apue.Database.Stages
import Apue.Printer.AnnouncedSize
import Apue.Foundation.Buffers
import Apue.Printer.JobHeaders
import Apue.Printer.JobList
import Apue.Opend.ArgumentVector
import Apue.Database.RoundTrip
import Apue.Opend.Accepting
import Apue.Opend.PollPass
import Apue.Printer.PartialTransfers
import Apue.Database.Reuse
import Apue.Database.Handles
import Apue.Sync.Listings
import Apue.Exercises.MemoryStreams
import Apue.Threads.JobQueue
import Apue.Threads.Merging
import Apue.Foundation.Handovers
import Apue.Threads.Messages
import Apue.Library.Popen
import Apue.Library.PopenChildren
import Apue.Filedir.TreeWalks
import Apue.Library.TerminalModes
import Apue.Foundation.Cooperation
import Apue.Sync.WellFormedTrees
import Apue.Sync.TargetDirectories
import Apue.Sync.Tasks
import Apue.Sync.WorkerRuns
import Apue.Sync.WholeRuns
import Apue.Sync.SynchronisedTrees
import Apue.Sync.DryRuns
import Apue.Sync.ProcessFiles
import Apue.Sync.Children
import Apue.Sync.ProcessRuns
import Apue.Sync.SimpleVisits
import Apue.Sync.SimpleRuns
import Apue.Sync.Agreement
import Apue.Foundation.Dialogues
import Apue.Printer.SubmitFile
import Apue.Printer.Receiving
import Apue.Printer.Spooling
import Apue.Printer.PrintRequests
import Apue.Printer.Printing
import Apue.Printer.ClientJobs
import Apue.Printer.Crashes
import Apue.Printer.JobThreads
import Apue.Coprocess.Answers
