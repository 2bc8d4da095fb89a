import XChainEncoder.Lib.KeptLedgers

/-!
# The node's identity

A coin node on the wrong network tier, or on another chain at that tier, is refused before any fee,
build or broadcast work. The calls share one connector and overlap at their awaits.

* `NodeIdentity`, `Connector`, `nodeSig`: what the encoder is configured for and what the connector
  remembers; `Connector.reads` lists what the calls were told, in order;
* `chainName`, `assertNodeGenesis`, `assertNodeTier`: the checks;
* `NodeCommand`, `nodeProgram`: the calls that run them; `probeNodeTier`: what readiness reports.
-/

namespace XChain.NodeTier

open Coroutine

/-- What the encoder is configured for: its network, and the hash of block 0 when one is pinned. -/
structure NodeIdentity where
  consensusNetwork : Option String
  chainGenesisHash : Option String

/-- What the table of chains holds under a name: a network, or what every object inherits, by its
text. -/
inductive MappedChain where
  | network (name : String)
  | inherited (text : String)
  deriving DecidableEq, Repr

def MappedChain.text : MappedChain → String
  | .network name => name
  | .inherited text => text

/-- The text of an inherited function. -/
def nativeText (name : String) : String := "function " ++ name ++ "() \x7b [native code] \x7d"

/-- The functions that every object inherits under their own names. -/
def inheritedFunctions : List String :=
  ["hasOwnProperty", "isPrototypeOf", "propertyIsEnumerable", "toLocaleString", "toString", "valueOf",
    "__defineGetter__", "__defineSetter__", "__lookupGetter__", "__lookupSetter__"]

/-- The network a chain name stands for. -/
def chainToNetwork : String → Option MappedChain
  | "main" => some (.network "mainnet")
  | "test" => some (.network "testnet")
  | "testnet3" => some (.network "testnet")
  | "testnet4" => some (.network "testnet")
  | "regtest" => some (.network "regtest")
  | "signet" => some (.network "signet")
  | "constructor" => some (.inherited (nativeText "Object"))
  | "__proto__" => some (.inherited "[object Object]")
  | name => if name ∈ inheritedFunctions then some (.inherited (nativeText name)) else none

/-- Why a reported tier is not the configured one; none when it is absent or unknown. -/
def chainTierMismatch (consensusNetwork : String) (reportedChain : Option String) : Option String :=
  match reportedChain.bind chainToNetwork with
  | none => none
  | some mapped =>
    if mapped = .network consensusNetwork then none
    else some ("node reports chain=\"" ++ reportedChain.getD "" ++ s!"\" ({mapped.text}) but this " ++
      s!"encoder is configured for {consensusNetwork}")

/-- Why a block-0 hash is not the pinned one. -/
def chainGenesisMismatch (pinnedHash : Option String) (reportedHash : String) : Option String :=
  match pinnedHash with
  | none => none
  | some pinned =>
    if pinned = "" ∨ reportedHash = "" ∨ pinned.toLower = reportedHash.toLower then none
    else some (s!"node block-0 hash is {reportedHash}, but this encoder is pinned to {pinned}, so " ++
      "the endpoint is serving a different chain")

/-- No genesis hash is pinned. -/
def chainGenesisUnpinned (pinnedHash : Option String) : Bool := pinnedHash.getD "" = ""

/-! ## Shared state -/

/-- What a call was told: a chain name the connector memoized, a chain name a tier check was given,
or a block-0 hash. -/
inductive Read where
  | fetched (name : String)
  | given (name : String)
  | genesis (hash : String)
  deriving DecidableEq, Repr

/-- The connector's flags. -/
structure Connector where
  chainNameCache : Option String
  nodeTierOk : Bool
  nodeTierWarned : Bool
  nodeGenesisOk : Bool
  nodeGenesisWarned : Bool
  nodeTierMismatch : Option String
  reads : List Read
  deriving DecidableEq, Repr

def Connector.new : Connector := ⟨none, false, false, false, false, none, []⟩

/-- What one call has met: whether the chain name was memoized when it began, which of its own reads
failed, the name it has been given and not yet examined, and whether the tier step is behind it. -/
structure Visit where
  memoized : Bool
  chainFailed : Bool
  genesisFailed : Bool
  holding : Option String
  tierPassed : Bool
  deriving DecidableEq, Repr

def Visit.new : Visit := ⟨false, false, false, none, false⟩

/-- A failed read, or a refusal. -/
inductive NodeError where
  | failed (message : String)
  | nodeChainMismatch (message : String)
  deriving DecidableEq, Repr

/-- What a call awaits: a node's reply, or its turn. -/
inductive NodeRequest where
  | getblockchaininfo
  | getblockhash (height : ℕ)
  | turn
  deriving DecidableEq, Repr

/-- A node's reply is a chain name or a hash; no reply is a refusal. -/
abbrev nodeSig : Sig where
  Shared := Connector
  Ledger := Visit
  Err := NodeError
  Req := NodeRequest
  Reply _ := String
  Rejects e := ∃ message, e = .failed message

abbrev Prog (α : Type) : Type := Coro nodeSig α

/-! ## The checks -/

/-- The chain name, memoized. -/
def chainName : Prog String :=
  .get fun s l =>
    match s.chainNameCache with
    | some name => .ret name
    | none => .await (σ := nodeSig) .getblockchaininfo fun r =>
      match r with
      | .error e => .throw e
      | .ok name =>
        if name = "" then .throw (.failed "Error getting blockchain info")
        else .get fun s _ =>
          .put { s with chainNameCache := some name, reads := s.reads ++ [.fetched name] } l (.ret name)

/-- Sixty-four hex digits. -/
def isBlockHash (result : String) : Bool :=
  result.length = 64 && result.toList.all fun c =>
    ('0' ≤ c && c ≤ '9') || ('a' ≤ c && c ≤ 'f') || ('A' ≤ c && c ≤ 'F')

/-- The node's block hash at a height, lowercased. -/
def getBlockHash (height : ℕ) : Prog String :=
  .await (σ := nodeSig) (.getblockhash height) fun r =>
    match r with
    | .error e => .throw e
    | .ok result =>
      if isBlockHash result then .ret result.toLower
      else .throw (.failed "Error getting block hash")

/-- What the program returns; none when it throws. -/
def attempted {α : Type} (c : Prog α) : Prog (Option α) :=
  (c.bind fun a => Coro.ret (some a)).tryCatch fun _ => .ret none

/-- A tier check is given its chain name and goes on in its turn; without one it warns once. -/
def givenChain : Option String → Prog (Option String)
  | some name => .get fun s l =>
    .put { s with reads := s.reads ++ [.given name] } { l with holding := some name }
      (.await (σ := nodeSig) .turn fun _ => .ret (some name))
  | none => .await (σ := nodeSig) .turn fun _ => .get fun s l =>
    .put { s with nodeTierWarned := true } { l with chainFailed := true } (.ret none)

/-- Examine the chain name of a tier check. -/
def examineChain (consensusNetwork : String) (chain : Option String) : Prog Unit :=
  .get fun s l =>
    match chainTierMismatch consensusNetwork chain with
    | some reason => .put { s with nodeTierMismatch := some reason } { l with holding := none }
        (.throw (.nodeChainMismatch ("Coin node is on the wrong network: " ++ reason)))
    | none => .put { s with nodeTierOk := s.nodeTierOk || chain.isSome } { l with holding := none }
        (.ret ())

/-- The tier step is behind the call. -/
def passTier : Prog Unit := .get fun s l => .put s { l with tierPassed := true } (.ret ())

/-- The tier step. -/
def assertTier (consensusNetwork : Option String) : Prog Unit :=
  .get fun s l => .put s { l with memoized := s.chainNameCache.isSome }
    (match consensusNetwork with
    | none => passTier
    | some consensusNetwork =>
      if consensusNetwork = "" || s.nodeTierOk then passTier
      else (attempted chainName).bind fun chain => (givenChain chain).bind fun chain =>
        (examineChain consensusNetwork chain).bind fun _ => passTier)

/-- Examine a block-0 hash; without one the check warns once. -/
def examineGenesis (pinnedHash : Option String) : Option String → Prog Unit
  | none => .get fun s l =>
    .put { s with nodeGenesisWarned := true } { l with genesisFailed := true } (.ret ())
  | some hash => .get fun s l =>
    match chainGenesisMismatch pinnedHash hash with
    | some reason => .put { s with nodeTierMismatch := some reason, reads := s.reads ++ [.genesis hash] }
        l (.throw (.nodeChainMismatch ("Coin node is on the wrong chain: " ++ reason)))
    | none => .put { s with
        nodeTierMismatch := none
        nodeGenesisOk := true
        reads := s.reads ++ [.genesis hash] } l (.ret ())

/-- The block-0 step. -/
def assertNodeGenesis (pinnedHash : Option String) : Prog Unit :=
  .get fun s _ =>
    if chainGenesisUnpinned pinnedHash || s.nodeGenesisOk then .ret ()
    else (attempted (getBlockHash 0)).bind fun reported => examineGenesis pinnedHash reported

/-- The tier, then the genesis block. -/
def assertNodeTier (identity : NodeIdentity) : Prog Unit :=
  (assertTier identity.consensusNetwork).bind fun _ => assertNodeGenesis identity.chainGenesisHash

/-! ## Calls -/

/-- A tier check, of a money method or a health probe, or another reader of the chain name. -/
inductive NodeCommand where
  | assertNodeTier
  | chainName
  deriving DecidableEq, Repr

/-- The program of each command. -/
def nodeProgram (identity : NodeIdentity) : NodeCommand → Prog Unit
  | .assertNodeTier => assertNodeTier identity
  | .chainName => chainName.bind fun _ => .ret ()

abbrev NodeWorld : Type := World nodeSig NodeCommand Unit
abbrev NodeCfg : Type := Cfg nodeSig NodeCommand Unit
abbrev NodeEvent : Type := Event nodeSig NodeCommand

/-- A run of the calls from a new connector. -/
def nodeRun (identity : NodeIdentity) (events : List NodeEvent) : NodeWorld :=
  run (nodeProgram identity) Visit.new (World.init 0 Connector.new) events

/-- What readiness reports: the mismatch, and whether the tier is settled. -/
def probeNodeTier (connector : Connector) : Option String × Bool :=
  (connector.nodeTierMismatch, connector.nodeTierMismatch.isSome || connector.nodeTierOk)

end XChain.NodeTier
