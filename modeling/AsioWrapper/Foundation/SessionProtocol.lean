import Mathlib.Computability.Language

/-!
# Logs of sessions

A component that is opened and closed again logs sessions: an opening event,
any inner events, and a closing event.  `Logged` relates what was logged so
far to whether a session is open.
-/

namespace AsioWrapper.Foundation

open scoped Computability

variable {ε : Type}

structure SessionProtocol (ε : Type) where
  opening : ε
  closing : ε
  inner : ε → Prop

namespace SessionProtocol

variable (p : SessionProtocol ε)

def body : Language ε := { word | ∃ event : ε, p.inner event ∧ word = [event] }

def session : Language ε := {[p.opening]} * p.body∗ * {[p.closing]}

def words : Language ε := p.session∗

inductive Logged (isOpen : Bool) (log : List ε) : Prop where
  | idle (hopen : isOpen = false) (hlog : log ∈ p.words)
  | session (hopen : isOpen = true) (past body : List ε) (hpast : past ∈ p.words)
      (hbody : body ∈ p.body∗) (hlog : log = past ++ p.opening :: body)

variable {p}

theorem append_mem_kstar {L : Language ε} {word last : List ε} (hword : word ∈ L∗)
    (hlast : last ∈ L) : word ++ last ∈ L∗ :=
  Set.mem_of_mem_of_subset (Language.append_mem_mul hword hlast) (kstar_mul_le_kstar (a := L))

theorem session_mem {body : List ε} (hbody : body ∈ p.body∗) :
    p.opening :: body ++ [p.closing] ∈ p.session := by
  have hopen : [p.opening] ++ body ∈ {[p.opening]} * p.body∗ :=
    Language.append_mem_mul (Set.mem_singleton _) hbody
  exact Language.append_mem_mul hopen (Set.mem_singleton _)

theorem logged_nil : p.Logged false [] := .idle rfl (Language.nil_mem_kstar _)

section Logged

variable {log : List ε}

theorem Logged.opened (h : p.Logged false log) : p.Logged true (log ++ [p.opening]) := by
  cases h with
  | idle _ hlog => exact .session rfl log [] hlog (Language.nil_mem_kstar _) rfl
  | session hopen => cases hopen

theorem Logged.closed (h : p.Logged true log) : p.Logged false (log ++ [p.closing]) := by
  cases h with
  | idle hopen => cases hopen
  | session _ past body hpast hbody hlog =>
      subst hlog
      refine .idle rfl ?_
      have := append_mem_kstar hpast (session_mem hbody)
      simpa [words] using this

theorem Logged.inner {isOpen : Bool} (h : p.Logged isOpen log) (hopen : isOpen = true)
    {event : ε} (hevent : p.inner event) : p.Logged isOpen (log ++ [event]) := by
  cases h with
  | idle hidle _ =>
      rw [hopen] at hidle
      contradiction
  | session _ past body hpast hbody hlog =>
      subst hlog
      refine .session hopen past (body ++ [event]) hpast ?_ (by simp)
      exact append_mem_kstar hbody ⟨event, hevent, rfl⟩

theorem Logged.isPrefix {isOpen : Bool} (h : p.Logged isOpen log) :
    ∃ word ∈ p.words, log <+: word := by
  cases h with
  | idle _ hlog => exact ⟨log, hlog, List.prefix_refl log⟩
  | session hopen past body hpast hbody hlog =>
      subst hlog
      have hword := append_mem_kstar hpast (session_mem hbody)
      refine ⟨_, hword, [p.closing], ?_⟩
      simp

end Logged

end SessionProtocol

end AsioWrapper.Foundation
