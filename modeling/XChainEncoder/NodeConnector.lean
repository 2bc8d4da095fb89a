import XChainEncoder.FeeQuotes
import XChainEncoder.UpstreamReasons

/-!
# The connector to the coin node

Fee estimates and broadcasts, as calls that share one connector and overlap at their awaits.

* `NodeRequest`, `NodeError`, `connectorSig`: the requests, the node's replies and what is thrown;
  `Exchange` is what one call takes note of, in order;
* `getFeePerKilobyte`: the rate of an estimate, with its ceiling, its fallback and its recovery;
* `sendRawTransaction`: a broadcast, and on regtest a second one without the node's fee cap;
* `ConnectorCommand`, `connectorProgram`: the calls.
-/

namespace XChain.NodeConnector

open Coroutine

/-- What the encoder is configured for; the settings are none where they are no number. -/
structure NodeSettings where
  enc : Encoder
  feeNoEstimateRelayMultiplier : Option ℚ
  feeEstimateSanityCeiling : Option ℚ

/-! ## Replies -/

/-- The code of an error object. -/
inductive FaultCode where
  | whole (code : ℤ)
  | other (text : String)
  deriving DecidableEq, Repr

/-- The code as it is printed. -/
def FaultCode.text : FaultCode → String
  | whole code => toString code
  | other text => text

/-- The error of a reply's body, with its text as JSON: an object or another value. -/
inductive RpcFault where
  | object (code : Option FaultCode) (message json : String)
  | other (json : String)
  deriving DecidableEq, Repr

/-- A reply's body; an absent member, or an empty one, is none. -/
structure Body (R : Type) where
  result : Option R
  error : Option RpcFault
  deriving DecidableEq, Repr

/-- A failed request; with a response, the error of its body. -/
structure HttpError where
  transport : Bool
  message : String
  response : Option (Option RpcFault)
  deriving DecidableEq, Repr

/-- What a function of the connector throws. -/
inductive NodeError where
  | operational (xchainCode message : String)
  | http (error : HttpError)
  | plain (message : String) (nodeCode : Option ℤ)
  deriving DecidableEq, Repr

/-- The text of an error. -/
def NodeError.message : NodeError → String
  | operational _ message => message
  | http error => error.message
  | plain message _ => message

/-- The field that is read of `getnetworkinfo`. -/
structure NetworkInfo where
  relayfee : Option ℚ
  deriving DecidableEq, Repr

/-- The field that is read of `estimatesmartfee`. -/
structure SmartFee where
  feerate : Option ℚ
  errors : List String
  deriving DecidableEq, Repr

/-- What a call awaits of the node. -/
inductive NodeRequest where
  | getblockchaininfo
  | getnetworkinfo
  | estimatesmartfee (blocks : ℕ)
  | sendrawtransaction (txHex : String) (maxfeerate : Option ℚ)
  deriving DecidableEq, Repr

/-- The result of a reply: the chain's name, or what else was asked for. -/
def NodeRequest.Result : NodeRequest → Type
  | getblockchaininfo => String
  | getnetworkinfo => NetworkInfo
  | estimatesmartfee _ => SmartFee
  | sendrawtransaction _ _ => String

/-! ## Shared state -/

/-- The memoized chain name, and every name that was memoized. -/
structure Connector where
  chainNameCache : Option String
  names : List String
  deriving DecidableEq, Repr

def Connector.new : Connector := ⟨none, []⟩

/-- What a call takes note of: the chain name it is given, a relay fee or an estimate it is told, a
transaction it sends, and how that ended. -/
inductive Exchange where
  | named (name : String)
  | relayed (relayfee : Option ℚ)
  | estimated (blocks : ℕ) (feerate : Option ℚ)
  | sent (txHex : String) (maxfeerate : Option ℚ)
  | accepted (txid : String)
  | refused (message : String)
  deriving DecidableEq, Repr

/-- Calls over one connector, each awaiting the node. -/
abbrev connectorSig : Sig where
  Shared := Connector
  Ledger := List Exchange
  Err := NodeError
  Req := NodeRequest
  Reply q := Body q.Result
  Rejects e := ∃ error, e = .http error

abbrev Prog (α : Type) : Type := Coro connectorSig α

/-- Write down an exchange with the node. -/
def note (exchange : Exchange) : Prog Unit := .get fun s l => .put s (l ++ [exchange]) (.ret ())

/-- What the program returns; none when it throws. -/
def attempted {α : Type} (c : Prog α) : Prog (Option α) :=
  (c.bind fun a => Coro.ret (some a)).tryCatch fun _ => .ret none

/-! ## Errors -/

/-- What an error object adds to a message. -/
def rpcErrorDetail : Option RpcFault → String
  | some (.object code message _) =>
    if code.isNone && message = "" then ""
    else " (RPC error " ++ (code.map FaultCode.text).getD "unknown" ++ ": " ++ message ++ ")"
  | _ => ""

/-- A request that the node did not answer. -/
def unreachable (message : String) : NodeError :=
  .operational "NODE_UNREACHABLE" ("Error in network request: coin node did not answer" ++
    (match Upstream.safeUpstreamReason (Upstream.units message) with
      | some reason => " (" ++ Upstream.text reason ++ ")"
      | none => "") ++ "; retry once the node is reachable")

/-- What a failed request is told as. -/
def nodeRequestError : NodeError → NodeError
  | .http error =>
    if error.response.isNone && error.transport then unreachable error.message
    else .plain ("Error in network request: " ++ error.message ++
      rpcErrorDetail (error.response.getD none)) none
  | error => .plain ("Error in network request: " ++ error.message) none

/-- A fault the node answers with. -/
def nodeRejection : RpcFault → NodeError
  | .object code message json => .plain (if message = "" then json else message)
    (match code with
      | some (.whole code) => some code
      | _ => none)
  | .other json => .plain json none

/-! ## Node queries -/

/-- The chain name the node reports. -/
def fetchChainName : Prog String :=
  .await (σ := connectorSig) .getblockchaininfo fun r =>
    match r with
    | .error e => .throw (nodeRequestError e)
    | .ok body =>
      match body.result with
      | some name => .ret name
      | none => .throw (nodeRequestError
          (.plain ("Error getting blockchain info" ++ rpcErrorDetail body.error) none))

/-- The chain name, memoized. -/
def chainName : Prog String :=
  .get fun s l =>
    match s.chainNameCache with
    | some name => .put s (l ++ [.named name]) (.ret name)
    | none => fetchChainName.bind fun name => .get fun s l =>
      .put { s with chainNameCache := some name, names := s.names ++ [name] } (l ++ [.named name])
        (.ret name)

/-- Whether the node runs a regtest chain. -/
def isRegtest : Prog Bool := chainName.bind fun name => .ret (name = "regtest")

/-- The node's network info. -/
def getNetworkInfo : Prog NetworkInfo :=
  .await (σ := connectorSig) .getnetworkinfo fun r =>
    match r with
    | .error e => .throw (nodeRequestError e)
    | .ok body =>
      match body.result with
      | some info => (note (.relayed info.relayfee)).bind fun _ => .ret info
      | none => .throw (nodeRequestError
          (.plain ("Error getting network info" ++ rpcErrorDetail body.error) none))

/-! ## Fee estimates -/

/-- A number, when it is over zero. -/
def positive (x : Option ℚ) : Option ℚ := x.filter (0 < ·)

/-- The configured multiplier of the fallback, or ten. -/
def noEstimateRelayMultiplier (node : NodeSettings) : ℚ :=
  (positive node.feeNoEstimateRelayMultiplier).getD 10

/-- The rate above which an estimate of a coin is not believed. -/
def defaultFeeEstimateSanityCeiling : Coin → ℚ
  | .btc => 1 / 100
  | .ltc => 1 / 100
  | .doge => 10

/-- The configured ceiling, or the coin's. -/
def feeEstimateSanityCeiling (node : NodeSettings) : ℚ :=
  (positive node.feeEstimateSanityCeiling).getD
    (defaultFeeEstimateSanityCeiling node.enc.network.coin)

/-- The rate of a regtest chain whose node reports no relay fee. -/
def regtestFloor : ℚ := 1 / 100000

/-- The node's relay fee; a node that does not answer is a typed failure. -/
def regtestFee : Prog ℚ :=
  (getNetworkInfo.bind fun info => .ret ((positive info.relayfee).getD regtestFloor)).tryCatch fun _ =>
    .throw (.operational "NODE_UNREACHABLE"
      "Coin node did not answer the fee query; retry once the node is reachable")

/-- Ask the node for an estimate. -/
def requestSmartFee (blocks : ℕ) : Prog (Body SmartFee) :=
  .await (σ := connectorSig) (.estimatesmartfee blocks) fun r =>
    match r with
    | .error (.http error) =>
      if error.response.isNone && error.transport then .throw (nodeRequestError (.http error))
      else .throw (.http error)
    | .error e => .throw e
    | .ok body => (note (.estimated blocks (body.result.bind SmartFee.feerate))).bind fun _ => .ret body

/-- The estimate of a reply. Over the ceiling it is the ceiling on the main chain, elsewhere none. -/
def usableSmartFee (node : NodeSettings) (body : Body SmartFee) : Prog (Option ℚ) :=
  match positive (body.result.bind SmartFee.feerate) with
  | none => .ret none
  | some feerate =>
    if feeEstimateSanityCeiling node < feerate then chainName.bind fun name =>
      .ret (if name = "main" then some (feeEstimateSanityCeiling node) else none)
    else .ret (some feerate)

/-- Off the main chain, a multiple of the relay fee stands for an estimate. -/
def noEstimateRelayFallback (node : NodeSettings) : Prog (Option ℚ) :=
  chainName.bind fun name =>
    if name = "main" then .ret none
    else getNetworkInfo.bind fun info =>
      .ret ((positive info.relayfee).map (· * noEstimateRelayMultiplier node))

/-- The reasons in an estimate's reply. -/
def smartFeeResultErrors (body : Body SmartFee) : String :=
  let reasons := (body.result.map SmartFee.errors).getD [] |>.filter (· ≠ "")
  if reasons = [] then "" else " (node: " ++ String.intercalate "; " reasons ++ ")"

/-- The fallback for a node without an estimate, or the node's own reasons. -/
def requireNoEstimateFallback (node : NodeSettings) (body : Body SmartFee) : Prog ℚ :=
  (noEstimateRelayFallback node).bind fun fallback =>
    match fallback with
    | some feerate => .ret feerate
    | none => .throw (.plain ("Error getting smart fee from node" ++ smartFeeResultErrors body ++
        rpcErrorDetail body.error) none)

/-- The error of the response's body. -/
def NodeError.detail : NodeError → String
  | http error => rpcErrorDetail (error.response.getD none)
  | _ => ""

/-- What was recovered, or the failure. -/
def recoveredOr (error : NodeError) : Option ℚ → Prog ℚ
  | some fee => .ret fee
  | none => .throw (if error.detail = "" then error else .plain (error.message ++ error.detail) none)

/-- Another try after a failed estimate; when that fails too, the first failure is thrown. -/
def recoverFeeEstimate (node : NodeSettings) (error : NodeError) : Prog ℚ :=
  ((isRegtest.bind fun regtest =>
    if regtest then regtestFee.bind fun fee => .ret (some fee)
    else noEstimateRelayFallback node).tryCatch fun _ => .ret none).bind (recoveredOr error)

/-- The rate of a node that has not failed. -/
def estimateRate (node : NodeSettings) (blocks : ℕ) : Prog ℚ :=
  isRegtest.bind fun regtest =>
    if regtest then regtestFee
    else (requestSmartFee blocks).bind fun body => (usableSmartFee node body).bind fun feerate =>
      match feerate with
      | some feerate => .ret feerate
      | none => requireNoEstimateFallback node body

/-- The rate of a build; any failure but a typed one leads to another try. -/
def getFeePerKilobyte (node : NodeSettings) (blocks : ℕ) : Prog ℚ :=
  (estimateRate node blocks).tryCatch fun error =>
    match error with
    | .operational _ _ => .throw error
    | _ => recoverFeeEstimate node error

/-- The tiers of the rates for six, three and one block: none under a slower one. -/
def tiersOf (enc : Encoder) (slow middle fast : ℚ) : FeeTiers :=
  let low := quoteTier enc slow
  let medium := max (quoteTier enc middle) low
  ⟨low, medium, max (quoteTier enc fast) (max low medium)⟩

/-- A typed failure is thrown on; any other is one text. -/
def estimateFeeError : NodeError → NodeError
  | .operational xchainCode message => .operational xchainCode message
  | _ => .plain "Fee estimation failed" none

/-- The tiers that are quoted, once the node's tier has been checked. -/
def estimateFee (node : NodeSettings) : Prog FeeTiers :=
  ((getFeePerKilobyte node 6).bind fun slow => (getFeePerKilobyte node 3).bind fun middle =>
    (getFeePerKilobyte node 1).bind fun fast =>
      .ret (tiersOf node.enc slow middle fast)).tryCatch fun error => .throw (estimateFeeError error)

/-! ## Broadcasts -/

/-- A failed broadcast. -/
def refuse (error : NodeError) : Prog String :=
  (note (.refused error.message)).bind fun _ => .throw error

/-- The fault of a failed request, or the failure itself. -/
def sendRawError : NodeError → NodeError
  | .http error =>
    match error.response.getD none with
    | some fault => nodeRejection fault
    | none => .http error
  | error => error

/-- Hand a transaction to the node, under its own fee cap or the one given. -/
def sendRaw (txHex : String) (maxfeerate : Option ℚ) : Prog String :=
  (note (.sent txHex maxfeerate)).bind fun _ =>
    .await (σ := connectorSig) (.sendrawtransaction txHex maxfeerate) fun r =>
      match r with
      | .error e => refuse (sendRawError e)
      | .ok body =>
        match body.error with
        | some fault => refuse (nodeRejection fault)
        | none =>
          match body.result with
          | some txid => (note (.accepted txid)).bind fun _ => .ret txid
          | none => refuse (.plain "Error broadcasting transaction: empty result" none)

/-- The message is about the node's cap on fees. -/
def complainsOfFee (message : String) : Bool :=
  decide ("maxfeerate".toList <:+: message.toLower.toList) ||
    decide ("fee exceeds maximum".toList <:+: message.toLower.toList)

/-- Broadcast a transaction; on regtest once more without the node's cap, if it complains of the
fee. -/
def sendRawTransaction (txHex : String) : Prog String :=
  (sendRaw txHex none).tryCatch fun error =>
    if complainsOfFee error.message then
      (attempted isRegtest).bind fun regtest =>
        if regtest = some true then sendRaw txHex (some 0) else .throw error
    else .throw error

/-! ## Calls -/

/-- A rate for a build, a quote of `estimate_fee`, a broadcast, or another reader of the chain name. -/
inductive ConnectorCommand where
  | getFeePerKilobyte (blocks : ℕ)
  | estimateFee
  | sendRawTransaction (txHex : String)
  | chainName
  deriving DecidableEq, Repr

/-- What a call returns. -/
inductive Answer where
  | rate (feerate : ℚ)
  | tiers (tiers : FeeTiers)
  | text (text : String)
  deriving DecidableEq, Repr

/-- The program of each command. -/
def connectorProgram (node : NodeSettings) : ConnectorCommand → Prog Answer
  | .getFeePerKilobyte blocks => (getFeePerKilobyte node blocks).bind fun rate => .ret (.rate rate)
  | .estimateFee => (estimateFee node).bind fun tiers => .ret (.tiers tiers)
  | .sendRawTransaction txHex => (sendRawTransaction txHex).bind fun txid => .ret (.text txid)
  | .chainName => chainName.bind fun name => .ret (.text name)

abbrev ConnectorWorld : Type := World connectorSig ConnectorCommand Answer
abbrev ConnectorCfg : Type := Cfg connectorSig ConnectorCommand Answer
abbrev ConnectorEvent : Type := Event connectorSig ConnectorCommand
abbrev ConnectorSnap : Type := Snap connectorSig ConnectorCommand Answer
abbrev ConnectorCall : Type := Call connectorSig ConnectorCommand Answer

/-- A run of the calls from a new connector. -/
def connectorRun (node : NodeSettings) (events : List ConnectorEvent) : ConnectorWorld :=
  run (connectorProgram node) [] (World.init 0 Connector.new) events

end XChain.NodeConnector
