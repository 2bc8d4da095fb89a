import XChainEncoder.Lib.PushScript
import XChainEncoder.Lib.PushSpellings
import XChainEncoder.Lib.Chunking
import XChainEncoder.Lib.Coroutine
import XChainEncoder.Lib.CallRuns
import XChainEncoder.Lib.KeptLedgers
import XChainEncoder.Lib.SoloRuns
import XChainEncoder.Lib.OracleRuns
import XChainEncoder.Lib.Lease
import XChainEncoder.Lib.Registry
import XChainEncoder.Lib.Writes
import XChainEncoder.Constants
import XChainEncoder.Library
import XChainEncoder.Identity
import XChainEncoder.Payload
import XChainEncoder.FeePolicy
import XChainEncoder.Decoder
import XChainEncoder.RoundTrip
import XChainEncoder.Reservations
import XChainEncoder.Psbt
import XChainEncoder.TxSize
import XChainEncoder.Requests
import XChainEncoder.FeeRates
import XChainEncoder.FeeQuotes
import XChainEncoder.FeeRounding
import XChainEncoder.PayloadChecks
import XChainEncoder.CancelSweeps
import XChainEncoder.Candidates
import XChainEncoder.FirstInputKey
import XChainEncoder.ScriptHashLegs
import XChainEncoder.DataOutputs
import XChainEncoder.InputSelection
import XChainEncoder.FeeSettlement
import XChainEncoder.RevealOutputs
import XChainEncoder.RevealSizes
import XChainEncoder.Build
import XChainEncoder.EnvelopeCancel
import XChainEncoder.ReservationInvariant
import XChainEncoder.ReservationEndings
import XChainEncoder.ClaimSteps
import XChainEncoder.SelectionSteps
import XChainEncoder.EmissionSteps
import XChainEncoder.BuildSteps
import XChainEncoder.EncoderRuns
import XChainEncoder.Exclusivity
import XChainEncoder.FailedBuilds
import XChainEncoder.CancelRuns
import XChainEncoder.BuildWrites
import XChainEncoder.BuildRecords
import XChainEncoder.DuplicateBuilds
import XChainEncoder.Compression
import XChainEncoder.TrackerPages
import XChainEncoder.ListFetch
import XChainEncoder.FreshPages
import XChainEncoder.ConcurrencyGate
import XChainEncoder.NodeTier
import XChainEncoder.NodeTierSteps
import XChainEncoder.NodeTierRuns
import XChainEncoder.InstanceLock
import XChainEncoder.InstanceLockInvariant
import XChainEncoder.InstanceLockPublication
import XChainEncoder.InstanceLockBreaking
import XChainEncoder.InstanceLockSteps
import XChainEncoder.InstanceLockRuns
import XChainEncoder.SelectionCoverage
import XChainEncoder.CandidateOrder
import XChainEncoder.FundableSelections
import XChainEncoder.FundableRequests
import XChainEncoder.BuildStages
import XChainEncoder.EnvelopeReveals
import XChainEncoder.KeyRefusals
import XChainEncoder.AncestorEntries
import XChainEncoder.AncestorPackages
import XChainEncoder.ExactInputs
import XChainEncoder.ReservedInputs
import XChainEncoder.BoundKeys
import XChainEncoder.KeyBinding
import XChainEncoder.AncestorLookups
import XChainEncoder.PackageSizing
import XChainEncoder.AncestorFunds
import XChainEncoder.AncestorRefusals
import XChainEncoder.SignedInputs
import XChainEncoder.SignedSizes
import XChainEncoder.PricedSizes
import XChainEncoder.RelayFees
import XChainEncoder.SignedFees
import XChainEncoder.Payouts
import XChainEncoder.RevealPayouts
import XChainEncoder.Publication
import XChainEncoder.GreedySelections
import XChainEncoder.RequestParams
import XChainEncoder.ValidatedRequests
import XChainEncoder.RequestReadings
import XChainEncoder.RequestRefusals
import XChainEncoder.CarrierFootprints
import XChainEncoder.ActionDataChecks
import XChainEncoder.SatoshiAmounts
import XChainEncoder.CompressedRequests
import XChainEncoder.ValueConservation
import XChainEncoder.WaitFree
import XChainEncoder.WaitFreeClaims
import XChainEncoder.WaitFreeRuns
import XChainEncoder.WitnessPrograms
import XChainEncoder.EnvelopeWeights
import XChainEncoder.UpstreamReasons
import XChainEncoder.NodeConnectorRuns
import XChainEncoder.Lib.Alike
import XChainEncoder.Lib.SameLive
import XChainEncoder.LapsedEntries
import XChainEncoder.EntryLifetimes
import XChainEncoder.SweptRuns
import XChainEncoder.LogShipper
import XChainEncoder.LogShipperRuns
import XChainEncoder.PrelaunchRequests
