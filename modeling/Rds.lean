import Rds.Lib.Framing
import Rds.Lib.Json
import Rds.Lib.FillOnce
import Rds.Lib.Invariant
import Rds.Lib.Interrupt
import Rds.Lib.DList
import Rds.Lib.Replay
import Rds.Lib.Instrument
import Rds.Lib.LineScan
import Rds.Lib.Ancestors
import Rds.Lib.Block
import Rds.Lib.Getopt
import Rds.Lib.Coupling
import Rds.Lib.Feed
import Rds.Lib.Turns
import Rds.Spec.Globvar
import Rds.Spec.MemManagement
import Rds.Spec.SignalHandler
import Rds.Spec.NetworkUtil
import Rds.Spec.NetworkSecurity
import Rds.Spec.CfgParsing
import Rds.Spec.ReadValue
import Rds.Spec.Params
import Rds.Spec.DetectMissingRepos
import Rds.Spec.JsonGlib
import Rds.Spec.JsonRead
import Rds.Spec.Hawkey
import Rds.Spec.JsonCreate
import Rds.Spec.RepoHandler
import Rds.Spec.RepoMetadata
import Rds.Spec.UrlArray
import Rds.Spec.MetadataPath
import Rds.Spec.Util
import Rds.Spec.Solving
import Rds.Spec.Server
import Rds.Spec.ServerMemory
import Rds.Spec.ServerMain
import Rds.Spec.Perils
import Rds.Spec.Packages
import Rds.Spec.Client
import Rds.Spec.ClientMain
import Rds.Spec.System
import Rds.Spec.Wire
import Rds.Spec.Visit
import Rds.Spec.ClientProgram
import Rds.Spec.Outcome
import Rds.Proof.Receive
import Rds.Proof.Upload
import Rds.Proof.Session
import Rds.Proof.Acknowledge
import Rds.Proof.Termination
import Rds.Proof.Complete
import Rds.Proof.Messages
import Rds.Proof.Reject
import Rds.Proof.Cache
import Rds.Proof.Transaction
import Rds.Proof.Builder
import Rds.Proof.Answer
import Rds.Proof.Solve
import Rds.Proof.Union
import Rds.Proof.Isolation
import Rds.Proof.Collector
import Rds.Proof.Tracking
import Rds.Proof.Consent
import Rds.Proof.Backup
import Rds.Proof.Decode
import Rds.Proof.NameArray
import Rds.Proof.Request
import Rds.Proof.Secure
import Rds.Proof.Gate
import Rds.Proof.Script
import Rds.Proof.Turn
import Rds.Proof.Talk
import Rds.Proof.Leak
import Rds.Proof.CfgLines
import Rds.Proof.CfgFind
import Rds.Proof.CfgWrite
import Rds.Proof.CfgScan
import Rds.Proof.CfgGrammar
import Rds.Proof.CfgIgnored
import Rds.Proof.CfgLoss
import Rds.Proof.MissingRepos
import Rds.Proof.Questions
import Rds.Proof.Status
import Rds.Proof.UrlBounds
import Rds.Proof.ReceiveBuffer
import Rds.Proof.RepoUrls
import Rds.Proof.NewData
import Rds.Proof.Containment
import Rds.Proof.Navigation
import Rds.Proof.MetadataDirs
import Rds.Proof.CfgDecides
import Rds.Proof.ItemCounter
import Rds.Proof.Params
import Rds.Proof.ReadValue
import Rds.Proof.Release
import Rds.Proof.Handler
import Rds.Proof.LinkSteps
import Rds.Proof.Signals
import Rds.Proof.SecondSignal
import Rds.Proof.ServerRun
import Rds.Proof.FilePieces
import Rds.Proof.Simulation
import Rds.Proof.ByteRefine
import Rds.Proof.Resolve
import Rds.Proof.EndToEnd
import Rds.Proof.Bursts
import Rds.Proof.ServerHalf
import Rds.Proof.Visits
import Rds.Proof.ClientStart
import Rds.Proof.Calls
