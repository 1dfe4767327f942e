import AsioWrapper.Foundation.Derived
import AsioWrapper.Udp.Client

/-!
# `MulticastClient`

The client program derives its class from `UDPClient`.  The class joins a
multicast group and receives from it as long as it is connected, and connects
again after every disconnect until it is told to stop.

An override is entered some time after the base has called it, which is where
`onDisconnected` sleeps.  The test of `_stop` and the `ConnectAsync` that
follows it are apart, and so are the two first statements of
`DisconnectAndStop`.
-/

namespace AsioWrapper.Udp

open AsioWrapper.Asio
open AsioWrapper.Foundation
open AsioWrapper.Foundation.Program

structure MulticastClient where
  client : Client
  multicast : String
  stop : Bool
  deriving DecidableEq, Repr

namespace MulticastClient

/-- Where a handler can be suspended: at the entry of a callback, or in `onDisconnected`
between the test of `_stop` and the call of `ConnectAsync`. -/
inductive Pause where
  | callback (event : Event)
  | reconnecting
  deriving DecidableEq, Repr

abbrev Code (α : Type) : Type := Program MulticastClient Pause ErrorCode α

def udpClient : Base MulticastClient Client where
  get := client
  set client t := { t with client := client }
  get_set _ _ := rfl
  set_get _ := rfl
  set_set _ _ _ := rfl

def ofAddressPort (address multicast : String) (port : Int) : MulticastClient :=
  ⟨Client.ofAddressPort address port, multicast, false⟩

/-- A function of the base class that invokes none of the callbacks overridden below. -/
def inherited {α : Type} (m : Client.Code α) : Code α :=
  m.derive udpClient .callback fun _ => pure ()

/-! ## The overrides -/

def onConnected (net : Net) (group : ErrorCode) : Code Unit := do
  let t ← state
  inherited (Client.joinMulticastGroup net t.multicast group)
  inherited Client.receiveAsync

def onDisconnected : Code Unit := do
  let t ← state
  if !t.stop then
    callback .reconnecting
    inherited (discard Client.connectAsync)

def onReceived : Code Unit := inherited Client.receiveAsync

def override (net : Net) (group : ErrorCode) : Event → Code Unit
  | .onConnected => onConnected net group
  | .onDisconnected => onDisconnected
  | .onReceived _ _ => onReceived
  | _ => pure ()

def overridden {α : Type} (net : Net) (group : ErrorCode) (m : Client.Code α) : Code α :=
  m.derive udpClient .callback (override net group)

/-! ## The client as a system -/

def disconnectAndStop : Code Unit := do
  update fun t => { t with stop := true }
  waitUntil fun _ => true
  inherited (discard Client.disconnectAsync)
  waitUntil fun t => !t.client.running

inductive Call where
  | setupMulticast (enable : Bool)
  | connectAsync
  | reconnectAsync
  | disconnectAndStop
  deriving DecidableEq, Repr

def call (net : Net) (inside : Bool) : Call → Code Unit
  | .setupMulticast enable => inherited (Client.call net inside (.setupMulticast enable))
  | .connectAsync => inherited (Client.call net inside .connectAsync)
  | .reconnectAsync => inherited (Client.call net inside .reconnectAsync)
  | .disconnectAndStop => disconnectAndStop

def groupAnswer : Pending → ErrorCode
  | .posted _ answers | .resolved _ answers => answers.group
  | .completion _ | .timer _ => .success

def handler (net : Net) (pending : Pending) (t : MulticastClient) :
    Option (Origin Client.Handler × Code Unit) :=
  (Client.handler net pending t.client).map fun (origin, program) =>
    (origin, overridden net (groupAnswer pending) program)

def environment (stimulus : Client.Stimulus) (t : MulticastClient) : Option MulticastClient :=
  (Client.environment stimulus t.client).map fun client => { t with client := client }

def system (net : Net) :
    System MulticastClient Pause ErrorCode (Origin Client.Handler) Call Pending
      Client.Stimulus where
  call k inside := call net inside k
  handler := handler net
  environment := environment

end MulticastClient

end AsioWrapper.Udp
