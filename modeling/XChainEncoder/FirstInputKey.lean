import XChainEncoder.Candidates

/-!
# Binding the obfuscation key

Before anything is awaited, the build claims the outpoint whose txid keys its payload.

* `claimExactInputs`: exact-input mode claims every named outpoint or refuses;
* `claimFirstFreeInput`: greedy mode claims the first free candidate and moves it to the front;
* `bindObfuscationKey`: the two, over the shared state at one clock reading.
-/

namespace XChain

open PushScript Coroutine

/-- The candidates in selection order, the outpoint claimed for the first input, and the key. -/
structure Bound where
  utxos : List Utxo
  firstReservedOutpoint : Option Outpoint
  txidFirstInput : Option Text

def showOutpoint (k : Outpoint) : String := s!"{String.ofList k.txid}:{k.vout}"

/-- The outpoints of the list that are reserved; lapsed entries are deleted on the way. -/
def heldByOthers (now : ℕ) : List Outpoint → Reservations → List Outpoint × Reservations
  | [], s => ([], s)
  | k :: ks, s =>
    let (reserved, s) := s.isOutpointReserved k now
    let (held, s) := heldByOthers now ks s
    (if reserved then k :: held else held, s)

def claimAll (now : ℕ) : List Utxo → Ledger → Reservations → Ledger × Reservations
  | [], l, s => (l, s)
  | u :: us, l, s =>
    let (l, s) := s.claimOutpoint l (outpointKey u) now
    claimAll now us l s

def inputReserved (held : List Outpoint) : BuildError :=
  OperationalError "INPUT_RESERVED"
    (s!"options.exactInputs names {held.length} outpoint(s) reserved by a transaction built in " ++
      "the last 5 minutes (" ++ ", ".intercalate (held.map showOutpoint) ++ "); exact-input mode " ++
      "cannot drop them, so broadcast that transaction and rebuild from the resulting view, or " ++
      "wait for the reservation to lapse")

/-- Claim every named outpoint or refuse the build. -/
def claimExactInputs (nowFirst : ℕ) (utxos : List Utxo) (l : Ledger) (s : Reservations) :
    Except BuildError Unit × Ledger × Reservations :=
  let s := s.evictExpiredReservations nowFirst
  let (held, s) := heldByOthers nowFirst (utxos.map outpointKey) s
  if held ≠ [] then (.error (inputReserved held), l, s)
  else (.ok (), claimAll nowFirst utxos l s)

/-- The first free candidate, after the reserved ones `skipped` and before the rest. -/
def findFreeInput (now : ℕ) : List Utxo → List Utxo → Reservations →
    Option (Utxo × List Utxo) × Reservations
  | _, [], s => (none, s)
  | skipped, u :: us, s =>
    let (reserved, s) := s.isOutpointReserved (outpointKey u) now
    if reserved then findFreeInput now (skipped ++ [u]) us s
    else (some (u, skipped ++ us), s)

/-- Claim the first outpoint no other build holds and move it to the front. -/
def claimFirstFreeInput (nowFirst : ℕ) (utxos : List Utxo) (l : Ledger) (s : Reservations) :
    Bound × Ledger × Reservations :=
  let s := s.evictExpiredReservations nowFirst
  match findFreeInput nowFirst [] utxos s with
  | (some (u, others), s) =>
    (⟨u :: others, some (outpointKey u), some (lower u.txid)⟩,
      s.claimOutpoint l (outpointKey u) nowFirst)
  | (none, s) => (⟨utxos, none, utxos.head?.map fun u => lower u.txid⟩, l, s)

def bindObfuscationKey (exactInputs : Bool) (utxos : List Utxo) : Prog Bound :=
  if utxos = [] then return ⟨[], none, none⟩
  else do
    let nowFirst ← Coro.readClock
    let (s, l) ← Coro.read
    if exactInputs then
      let (r, l, s) := claimExactInputs nowFirst utxos l s
      Coro.write (σ := sig) s l
      Coro.ofExcept (σ := sig) r
      return ⟨utxos, none, utxos.head?.map fun u => lower u.txid⟩
    else
      let (bound, l, s) := claimFirstFreeInput nowFirst utxos l s
      Coro.write (σ := sig) s l
      return bound

end XChain
