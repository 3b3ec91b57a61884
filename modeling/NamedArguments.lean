import NamedArguments.Settings.Search
import NamedArguments.ArgumentMap.Walk
import NamedArguments.ArgumentMap.Record
import NamedArguments.Program
import NamedArguments.Value.Instance
import NamedArguments.Proofs.ExtractionLosses
import NamedArguments.Proofs.ExtractionOutcome
import NamedArguments.Proofs.ExtractionRemainder
import NamedArguments.Proofs.MappingMirrors
import NamedArguments.Proofs.MappingQuestions
import NamedArguments.Proofs.LayeredLookup
import NamedArguments.Proofs.EnvironmentTrees
import NamedArguments.Proofs.SessionSteps
import NamedArguments.Proofs.SettingsHistory
import NamedArguments.Proofs.BrokenFiles
import NamedArguments.Proofs.InsertionOrder
import NamedArguments.Proofs.LiveIteration
import NamedArguments.Proofs.WrappedCalls
import NamedArguments.Proofs.StagedExtraction
import NamedArguments.Proofs.SettingsInfluence
import NamedArguments.Holdings
import NamedArguments.Proofs.SchemaCirculation
import NamedArguments.Proofs.TableDecoding
import NamedArguments.Proofs.BuilderChains
import NamedArguments.Proofs.RejectedKeys
import NamedArguments.Proofs.RecordArguments
import NamedArguments.Proofs.RepeatedSets
import NamedArguments.Proofs.LatestSet
import NamedArguments.Proofs.ExtractionReports
import NamedArguments.Proofs.EnvironmentReading
import NamedArguments.Proofs.UnknownPaths
import NamedArguments.Proofs.ParentMembers
import NamedArguments.Proofs.RegisteredSchemas
import NamedArguments.Proofs.AssembledLayer
