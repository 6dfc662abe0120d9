import MainLocator.Code.Draft
import MainLocator.Codec.Resolution
import MainLocator.Codec.Settings
import MainLocator.Description
import MainLocator.Proofs.BodyTables
import MainLocator.Proofs.Evaluation
import MainLocator.Proofs.Folding
import MainLocator.Proofs.Flow
import MainLocator.Proofs.RecognitionStep
import MainLocator.Proofs.WriteOnce
import MainLocator.Proofs.Overtaking
import MainLocator.Proofs.Additions
import MainLocator.Proofs.LedgerHistory
import MainLocator.Proofs.LedgerFile
import MainLocator.Proofs.TailCalls
import MainLocator.Proofs.UndeterminedFlow
import MainLocator.Proofs.Inclusion
import MainLocator.Proofs.UncalledProcedures
import MainLocator.Proofs.DraftBuilding
import MainLocator.Proofs.UnnamedStubs
import MainLocator.Proofs.BlockEnds
import MainLocator.Proofs.ReturnFlow
import MainLocator.Proofs.ArgumentProbe
import MainLocator.Proofs.BlockIdentity
import MainLocator.Proofs.EntryTrampoline
import MainLocator.Proofs.Agreement
import MainLocator.Proofs.CallEdges
import MainLocator.Proofs.Substitution
import MainLocator.Proofs.WrittenForms
import MainLocator.Proofs.SettingsFields
import MainLocator.Proofs.GivenOrder
import MainLocator.Proofs.OperationTexts
import MainLocator.Proofs.Listing
import MainLocator.Proofs.LedgerVersions
import MainLocator.Proofs.JsonMembers
import MainLocator.Proofs.Lookups
import MainLocator.Proofs.HeaderFields
import MainLocator.Proofs.FoldingRuns
import MainLocator.Proofs.FoldingMemory
import MainLocator.Proofs.FlowRuns
