import XChainEncoder.Payload

/-!
# The reference decoder

How an indexer reads a payload back from the scripts that carry it.

* `decodeCarrier`: the chunk one script carries, by encoding;
* `reassemble`: the chunks of all scripts, joined in output order;
* `bufferElements`: the pushes of the joined bytes, opcodes dropped;
* `gateOutcome`: the `data` and `rawData` the decoder's gate takes from them.
-/

namespace XChain

open PushScript

/-- The bytes after the magic word, if they start with it. -/
def stripMagic (plain : Bytes) : Option Bytes :=
  if plain.take magicWord.length = magicWord then some (plain.drop magicWord.length) else none

variable (L : Library)

/-- An OP_RETURN carrier under the txid of the first input. -/
def decodeOpReturn (txid : Text) (script : Bytes) : Option Bytes :=
  match decompile script with
  | some [.op 0x6a, .push d] => (obfuscate L d txid).bind stripMagic
  | _ => none

/-- A MULTISIGN slot: the two data keys without their prefix byte. -/
def decodeMultisign (txid : Text) (script : Bytes) : Option Bytes :=
  match decompile script with
  | some (.op 0x51 :: .push k1 :: .push k2 :: _) =>
    (obfuscate L (k1.drop 1 ++ k2.drop 1) txid).bind stripMagic
  | _ => none

/-- A chunk script: the leading push. -/
def decodeChunkScript (script : Bytes) : Option Bytes :=
  match decompile script with
  | some (.push chunk :: _) => some chunk
  | _ => none

/-- The pushes at the front of a script and what follows them. -/
def takePushes : List Element → List Bytes × List Element
  | .push d :: es => (d :: (takePushes es).1, (takePushes es).2)
  | es => ([], es)

/-- An envelope leaf: magic, format, at least one payload push, then the key check. -/
def decodeEnvelope (script : Bytes) : Option Bytes :=
  match decompile script with
  | some (.op 0x00 :: .op 0x63 :: .push magic :: .push format :: rest) =>
    if magic = magicWord ∧ format = [taprootEnvelopeFormatV0] then
      match takePushes rest with
      | (pushes, [.op 0x68, .push key, .op 0xac]) =>
        if pushes ≠ [] ∧ key.length = 32 then some pushes.flatten else none
      | _ => none
    else none
  | _ => none

def decodeCarrier (encoding : Encoding) (txid : Text) : Bytes → Option Bytes :=
  match encoding with
  | .opReturn => decodeOpReturn L txid
  | .multisign => decodeMultisign L txid
  | .p2sh | .p2wsh => decodeChunkScript
  | .taproot => decodeEnvelope

def reassemble (encoding : Encoding) (txid : Text) (carriers : List Bytes) : Option Bytes :=
  (carriers.mapM (decodeCarrier L encoding txid)).map List.flatten

/-- The pushes of a byte string, opcodes dropped. -/
def bufferElements (s : Bytes) : Option (List Bytes) :=
  (decompile s).map (List.filterMap Element.data?)

/-- The gate: a leading push is `data`, a second element that is a push is `rawData`. -/
def gateOutcome (s : Bytes) : Option (Bytes × Option Bytes) :=
  match decompile s with
  | some (.push data :: rest) => some (data, rest.head?.bind Element.data?)
  | _ => none

end XChain
