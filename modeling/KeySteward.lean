import KeySteward.Controller.Watch
import KeySteward.Json.MergePatch
import KeySteward.Manager.Managed
import KeySteward.Proofs.KeyResumption
import KeySteward.Proofs.KeySeries
import KeySteward.Proofs.ReplicaIdentity
import KeySteward.Proofs.ReplicaTagging
import KeySteward.Service.Journal
import KeySteward.Service.Memory
import KeySteward.Service.Wire
import KeySteward.Proofs.CallBoundaries
import KeySteward.Proofs.ImmutableChanges
import KeySteward.Proofs.ListingReadings
import KeySteward.Proofs.AliasNames
import KeySteward.Proofs.AliasPasses
import KeySteward.Proofs.AliasRenames
import KeySteward.Proofs.StoredGrants
import KeySteward.Proofs.GrantEdits
import KeySteward.Proofs.ConditionHistory
import KeySteward.Proofs.PassVerdicts
import KeySteward.Proofs.ReplicaPlacement
import KeySteward.Proofs.StatusPatches
import KeySteward.Proofs.Interleavings
import KeySteward.Proofs.KeyedCalls
import KeySteward.Proofs.CallEffects
import KeySteward.Proofs.StoreIntegrity
import KeySteward.Proofs.ApartPasses
import KeySteward.Proofs.SharedKey
import KeySteward.Proofs.SharedChanges
import KeySteward.Proofs.OverlappingPasses
import KeySteward.Proofs.PassChanges
import KeySteward.Proofs.PassResults
import KeySteward.Proofs.PassFrames
import KeySteward.Proofs.AliasTargets
import KeySteward.Proofs.RepeatedFinalization
import KeySteward.Proofs.GrantConvergence
import KeySteward.Proofs.ForeignConditions
import KeySteward.Proofs.PartialUpdates
import KeySteward.Proofs.PageSizes
import KeySteward.Proofs.ResourceRoundTrips
import KeySteward.Proofs.UpdateSteps
import KeySteward.Proofs.WarrantedChanges
import KeySteward.Proofs.LostDeletions
import KeySteward.Proofs.PendingKeys
import KeySteward.Proofs.DeletionWindows
import KeySteward.Proofs.ErrorResponses
import KeySteward.Proofs.Replications
import KeySteward.Proofs.SpecDeltas
import KeySteward.Proofs.ConditionLists
import KeySteward.Proofs.ValueDifferences
import KeySteward.Proofs.RequestBodies
import KeySteward.Proofs.CallRecords
import KeySteward.Proofs.TagNormalForms
import KeySteward.Proofs.PolicyReports
