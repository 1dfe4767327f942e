import AsioWrapper.Foundation.SessionProtocol
import AsioWrapper.Udp.Reach

/-!
# The callback protocol of the client

The callbacks of a client come in sessions: `onConnected`, then any callbacks
that are about data, errors and groups, then `onDisconnected`.  Each callback
is invoked in the segment that found the client connected, so a re-entrant
`Disconnect` cannot come between the test and the callback.
-/

namespace AsioWrapper.Udp

open AsioWrapper.Asio
open AsioWrapper.Foundation
open scoped Computability

def plainCallback : Language Event :=
  { word | ∃ event : Event, event.isLifecycle = false ∧ word = [event] }

def sessionCallbacks : Language Event :=
  {[.onConnected]} * plainCallback∗ * {[.onDisconnected]}

def callbackProtocol : Language Event := sessionCallbacks∗

def clientSessions : SessionProtocol Event :=
  ⟨.onConnected, .onDisconnected, fun event => event.isLifecycle = false⟩

namespace Client

/-- The client class has no setter for its buffer limits. -/
def Unlimited (s : Client) : Prop := s.sendBufferLimit = 0 ∧ s.receiveBufferLimit = 0

private theorem running_of_guarded {s : Client} (hunlimited : Unlimited s)
    (hguarded : (profile True).Guarded s) : s.running = true := by
  rcases hguarded trivial with hrun | hlimited
  · exact hrun
  · have := hunlimited.1
    have := hunlimited.2
    unfold Peer.Limited at hlimited
    omega

def Conforms (s : Client) : Prop := clientSessions.Logged s.running s.log ∧ Unlimited s

private theorem conforms_stable : Stable (profile True) Conforms where
  quiet h hs := by
    cases h with
    | special h => cases h <;> exact hs
    | _ => exact hs
  fires h hs := by
    obtain ⟨hlogged, hunlimited⟩ := hs
    cases h with
    | opened socket size hrun =>
        rw [hrun] at hlogged
        exact ⟨hlogged.opened, hunlimited⟩
    | closed hrun =>
        rw [hrun] at hlogged
        exact ⟨hlogged.closed, hunlimited⟩
    | plain event hplain hguarded =>
        exact ⟨hlogged.inner (running_of_guarded hunlimited hguarded) hplain, hunlimited⟩
    | sent endpoint sent hguarded =>
        exact ⟨hlogged.inner (running_of_guarded hunlimited hguarded) rfl, hunlimited⟩
    | sentAsync sent hrun => exact ⟨hlogged.inner hrun rfl, hunlimited⟩
    | received endpoint received hguarded =>
        exact ⟨hlogged.inner (running_of_guarded hunlimited hguarded) rfl, hunlimited⟩
    | unresolved hunchecked => exact (hunchecked trivial).elim
  fails h hs := by
    cases h <;> exact hs
  stirred h hs := by
    cases h <;> exact hs

theorem conforms_fresh (endpoint : Endpoint) (own : Members) :
    Conforms (Peer.fresh endpoint own) :=
  ⟨SessionProtocol.logged_nil, rfl, rfl⟩

/--
Whatever a client's own code, its callbacks and the completion of its operations
interleave to, the callbacks invoked so far are a prefix of a word of the protocol.
-/
theorem callbacks_follow_protocol (net : Net) {s₀ : Client} (hs₀ : Constructed s₀)
    (ms : List (Move Call Pending Stimulus))
    (hms : ∀ m ∈ ms, m.Admitted CheckedCall CheckedHandler) :
    ∀ c ∈ (system net).states (.initial s₀) ms,
      ∃ word ∈ callbackProtocol, c.world.log <+: word := by
  intro c hc
  obtain ⟨endpoint, own, rfl, -⟩ := hs₀.fresh
  have hkeeps : (system net).Obeys (fun k => True → CheckedCall k)
      (fun h => True → CheckedHandler h) (Keeps Conforms) :=
    (system_obeys True net).mono fun _ _ _ _ _ heffect => conforms_stable.effect heffect
  refine (System.states_keep hkeeps ?_ (conforms_fresh endpoint own) ?_ c hc).1.isPrefix
  · intro stimulus s s' henv hs
    exact conforms_stable.untouched (Or.inr (environment_cases henv)) hs
  intro m hm
  have := hms m hm
  cases m with
  | call k thread => exact fun _ => this
  | handler h => exact fun _ => this
  | resume i => trivial
  | unwind i => trivial
  | environment e => trivial

theorem callbacks_follow_protocol_receiving :
    ∃ c, (system .loopback).run (.initial (ofAddressPort "127.0.0.1" 5000))
        [.call (.connect (.clean 4)) none, .call .receiveAsync (some 0), .resume 0,
          .environment (.socket (.complete 0 ⟨.success, 3, default⟩)),
          .handler (.completion 0), .call .receiveAsync (some 1), .resume 1,
          .environment (.socket (.complete 1 ⟨.noBufferSpace, 0, default⟩)),
          .handler (.completion 1), .resume 2] = some c ∧
      c.world.log = [.onConnected, .onReceived default 3, .onError .noBufferSpace,
        .onDisconnected] ∧
      ∃ word ∈ callbackProtocol, c.world.log <+: word := by
  refine ⟨_, rfl, rfl, ?_⟩
  refine callbacks_follow_protocol .loopback (.ofAddressPort "127.0.0.1" 5000)
    [.call (.connect (.clean 4)) none, .call .receiveAsync (some 0), .resume 0,
      .environment (.socket (.complete 0 ⟨.success, 3, default⟩)),
      .handler (.completion 0), .call .receiveAsync (some 1), .resume 1,
      .environment (.socket (.complete 1 ⟨.noBufferSpace, 0, default⟩)),
      .handler (.completion 1), .resume 2] ?_ _ (Steps.run_mem_states rfl)
  simp [Move.Admitted, CheckedCall, CheckedHandler]

end Client

end AsioWrapper.Udp
