import AsioWrapper.Service.Hosting

/-!
# The server program

`main` of the server program starts a service and a server on it, multicasts
what it reads line by line, and shuts both down.  No other thread calls the two,
and the threads of the service run the handlers they have posted.  The classes
the program derives only print in their callbacks, so that a callback returns at
once.
-/

namespace AsioWrapper.Apps

open AsioWrapper.Asio
open AsioWrapper.Foundation
open AsioWrapper.Service
open AsioWrapper.Udp

abbrev Line : Type := List UInt8

def ascii (text : String) : List UInt8 := text.toList.map fun c => UInt8.ofNat c.toNat

structure Session where
  net : Net
  multicastAddress : String
  multicastPort : Int
  input : List Line

structure Datagram where
  endpoint : Asio.Endpoint
  data : List UInt8
  deriving DecidableEq, Repr

/-- Where `main` is from the construction of the server on.  `accepted` is what
`UDPServer::Stop` has returned. -/
inductive Main where
  | starting
  | reading (input : List Line)
  | restarting (input : List Line)
  | stopping
  | stopped (accepted : Bool)
  | joining (accepted : Bool)
  | returned (accepted : Bool)
  deriving DecidableEq, Repr

/-- The program in `Service::Start`, with its server, or after an exception that nobody
catches. -/
inductive ServerProgram (m n : Nat) where
  | starting (service : State m n)
  | serving (main : Main) (hosted : Hosted m n) (sent : List Datagram)
  | aborted

/-- `answer` is what `send_to` answers if `main` sends a datagram, `answers` are for the start
handler of the server. -/
inductive ServerMove (n : Nat) where
  | main (answer : Completion)
  | worker (thread : Fin n) (turn : Turn) (answers : SocketAnswers)
  deriving DecidableEq, Repr

def message (line : Line) : List UInt8 := ascii "(udpmulticasttest) " ++ line

variable {m n : Nat}

def multicast (h : Hosted m n) (data : List UInt8) (answer : Completion) : Hosted m n :=
  { h with
    server :=
      (Server.send h.server.own.multicastEndpoint (.bytes data) answer h.server).final }

def transmitted (h : Hosted m n) (data : List UInt8) : List Datagram :=
  if h.server.running && !data.isEmpty then [⟨h.server.own.multicastEndpoint, data⟩] else []

variable [NeZero m]

namespace ServerProgram

def mainStep (session : Session) (answer : Completion) (h : Hosted m n) (sent : List Datagram) :
    Main → Option (ServerProgram m n)
  | .starting =>
      match session.net.makeAddress session.multicastAddress with
      | none => some .aborted
      | some address =>
          let endpoint : Asio.Endpoint := ⟨address, toPort session.multicastPort⟩
          let own := { h.server.own with multicastEndpoint := endpoint }
          let h := { h with server := { h.server with own := own } }
          some (.serving (.reading session.input) (h.invoke .start) sent)
  | .reading [] => some (.serving .stopping h sent)
  | .reading (line :: input) =>
      if line = [] then
        some (.serving .stopping h sent)
      else if line = ascii "!" then
        -- `Restart` waits if its `Stop` is accepted
        if h.server.running then
          some (.serving (.restarting input) (h.invoke .stop) sent)
        else
          some (.serving (.reading input) (h.invoke .stop) sent)
      else
        some (.serving (.reading input) (multicast h (message line) answer)
          (sent ++ transmitted h (message line)))
  | .restarting input =>
      if h.server.running then none else some (.serving (.reading input) (h.invoke .start) sent)
  | .stopping => some (.serving (.stopped h.server.running) (h.invoke .stop) sent)
  | .stopped accepted =>
      (h.step (.service (.call .stop) (.clean 0))).map fun h => .serving (.joining accepted) h sent
  | .joining accepted =>
      match h.service.caller with
      | .idle _ => some (.serving (.returned accepted) h sent)
      | _ =>
          (h.step (.service .caller (.clean 0))).map fun h => .serving (.joining accepted) h sent
  | .returned _ => none

def step (session : Session) (p : ServerProgram m n) : ServerMove n → Option (ServerProgram m n)
  | .main answer =>
      match p with
      | .starting s =>
          match s.caller with
          | .idle _ => some (.serving .starting (.construct s (Server.ofPort 0 .ipv4)) [])
          | _ => (Service.step s .caller).map .starting
      | .serving main h sent => mainStep session answer h sent main
      | .aborted => none
  | .worker i turn answers =>
      match p with
      | .starting s => (Service.step s (.worker i turn)).map .starting
      | .serving main h sent =>
          (h.step (.service (.worker i turn) answers)).map fun h => .serving main h sent
      | .aborted => none

end ServerProgram

def serverProgram : ServerProgram (serviceCount 1 false) 1 :=
  .starting { ofThreads 1 false with caller := .start false }

end AsioWrapper.Apps
