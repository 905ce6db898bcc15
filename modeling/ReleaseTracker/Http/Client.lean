import ReleaseTracker.Fault
import ReleaseTracker.Http.Message
import ReleaseTracker.Program

/-! Sending requests over a network. A request that no answer comes to fails with a transport
error. -/

namespace ReleaseTracker.Http

def Network : Interface := ⟨Request, fun _ => Except String Response⟩

structure Client where
  timeout : Option Nat
deriving DecidableEq, Repr

namespace Client

def userAgent : String := "starfeed/0.1.0"

def ownHeaders (client : Client) : Headers :=
  ("accept", "*/*") :: if client.timeout.isSome then [("user-agent", userAgent)] else []

def complete (client : Client) (request : Request) : Request :=
  { request with
    headers := request.headers ++
      client.ownHeaders.filter fun header => (request.headers.get? header.1).isNone }

def send (client : Client) (request : Request) :
    Program Network Fault (Except Error Response) :=
  .ask (I := Network) (client.complete request) fun (answer : Except String Response) =>
    match answer with
    | .ok response => .done (.ok response)
    | .error reason => .done (.error (.transport reason))

end Client
end ReleaseTracker.Http
