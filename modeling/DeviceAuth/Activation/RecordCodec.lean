import DeviceAuth.Activation.Record
import DeviceAuth.Codec
import DeviceAuth.Envelope
import DeviceAuth.HttpRequest

namespace DeviceAuth

def Version.all : List Version :=
  [.v2, .v3]

namespace Counter

def codec : Codec Counter where
  write
    | .numeric n => Codec.word32.write 0 ++ Codec.word64.write n
    | .chain state steps => Codec.word32.write 1 ++ ((Codec.fixed 32).pair Codec.word64).write (state, steps)
  read input :=
    (Codec.word32.read input).bind fun (kind, rest) =>
      if kind = 0 then (Codec.word64.read rest).map fun (n, rest) => (.numeric n, rest)
      else if kind = 1 then
        (((Codec.fixed 32).pair Codec.word64).read rest).map fun ((state, steps), rest) =>
          (.chain state steps, rest)
      else none

end Counter

open Codec

def ProtectedKeys.codec : Codec ProtectedKeys :=
  (bytes.pair <| bytes.pair <| bytes.option.pair <| bytes.pair <| (fixed 16).pair word32).map
    (fun (possession, knowledge, biometry, transport, salt, iterations) =>
      { possession, knowledge, biometry, transport, salt, iterations })
    (fun p => (p.possession, p.knowledge, p.biometry, p.transport, p.salt, p.iterations))

def Cryptogram.codec : Codec Cryptogram :=
  (bytes.option.pair <| bytes.pair <| bytes.pair bytes).map
    (fun (ephemeralKey, body, mac, nonce) => { ephemeralKey, body, mac, nonce })
    (fun c => (c.ephemeralKey, c.body, c.mac, c.nonce))

def HttpSignature.codec : Codec HttpSignature :=
  (text.pair <| text.pair <| text.pair <| text.pair <| text.pair text).map
    (fun (version, activationId, applicationKey, nonce, factor, signature) =>
      { version, activationId, applicationKey, nonce, factor, signature })
    (fun s => (s.version, s.activationId, s.applicationKey, s.nonce, s.factor, s.signature))

def Activation.Record.codec : Codec Activation.Record :=
  (text.pair <| bytes.pair <| bytes.pair <| bytes.pair <| bytes.option.pair <|
    ProtectedKeys.codec.pair <| Counter.codec.pair <| flag.pair <|
    (choice Activation.Health.all).pair (choice Version.all).option).map
    (fun (id, serverKey, deviceKey, sealedPrivateKey, sealedRecovery, keys, counter, external,
        health, pendingUpgrade) =>
      { id, serverKey, deviceKey, sealedPrivateKey, sealedRecovery, keys, counter, external,
        health, pendingUpgrade })
    (fun r => (r.id, r.serverKey, r.deviceKey, r.sealedPrivateKey, r.sealedRecovery, r.keys,
      r.counter, r.external, r.health, r.pendingUpgrade))

def Codec.decode {α : Type} (c : Codec α) (b : Bytes) : Except Failure α :=
  match c.decode? b with
  | some a => .ok a
  | none => .error (.corrupted .unreadable)

end DeviceAuth
