import Peerscale.RelayFile.Discipline

/-! # Integrity of received files

Whatever a remote peer sends and whatever fails on the way, the file at the final
path is either left alone or replaced by bytes that hash to the checksum the peer
announced and confirmed.
-/

namespace Peerscale.RelayFile

open Program

variable {library : Library} {config : Config} {init : InitMessage} {events : List Event}
  {files : Files} {callback : Bool} {result : Except GoPanic Receiver} {final : World}

def SessionExecutes (library : Library) (config : Config) (init : InitMessage)
    (events : List Event) (files : Files) (callback : Bool)
    (result : Except GoPanic Receiver) (final : World) : Prop :=
  (session library config init events).Executes (environment True)
    ⟨files, Local.fresh callback⟩ result final

theorem sessionExecutes_run (library : Library) (config : Config) (init : InitMessage)
    (events : List Event) (files : Files) (callback : Bool) :
    SessionExecutes library config init events files callback
      ((session library config init events).run handle ⟨files, Local.fresh callback⟩).1
      ((session library config init events).run handle ⟨files, Local.fresh callback⟩).2 := by
  have undisturbed : ∀ w, (environment True).rely w w := fun _ => ⟨.inl rfl, fun _ => rfl⟩
  exact executes_run handle undisturbed outcome_handle _ _

section

variable (execution : SessionExecutes library config init events files callback result final)

include execution

theorem SessionExecutes.meets :
    Meets (Standing ⟨True, files.read, config, init⟩ (Confirmed library init events))
      (fun _ post => Untouched ⟨True, files.read, config, init⟩ post) result final := by
  have guarded : Guarded ⟨True, files.read, config, init⟩ (session library config init events)
      (Standing ⟨True, files.read, config, init⟩ (Confirmed library init events))
      ⟨files, Local.fresh callback⟩ := by
    apply guarded_session rfl
    exact ⟨fun _ _ _ => rfl, by simp [Local.fresh]⟩
  exact guarded.executes execution

theorem SessionExecutes.untouched (undelivered : result ≠ .ok (.ended .delivered)) :
    Untouched ⟨True, files.read, config, init⟩ final := by
  have met := execution.meets
  cases result with
  | error => exact met
  | ok rcv =>
    cases rcv with
    | waitInit => exact met.elim
    | receiving => exact met.untouched
    | ended ending =>
      cases ending with
      | delivered => exact absurd rfl undelivered
      | noInit | rejected | unanswered | failed => exact met

theorem SessionExecutes.reads (notTmp : path ≠ tmpPath config init.name)
    (notFinal : path ≠ finalPath config init.name) : final.files.read path = files.read path := by
  by_cases delivered : result = .ok (.ended .delivered)
  · have met := execution.meets
    rw [delivered] at met
    exact met.1.reads trivial path notTmp notFinal
  · exact (execution.untouched delivered).reads trivial path notTmp

end

/-- A session that delivers leaves bytes with the announced and confirmed
checksum; any other leaves the final path as it was and never claims success. -/
theorem session_integrity
    (execution : SessionExecutes library config init events files callback result final) :
    (result = .ok (.ended .delivered) →
      (∃ bytes, final.files.read (finalPath config init.name) = some bytes ∧
        Certifies init.checksum bytes) ∧ Confirmed library init events) ∧
    (result ≠ .ok (.ended .delivered) → final.files.read (finalPath config init.name) =
        files.read (finalPath config init.name) ∧ Reply.done ∉ final.self.sent) := by
  constructor
  · intro delivered
    have met := execution.meets
    rw [delivered] at met
    exact ⟨met.1.certified, met.2.2⟩
  intro undelivered
  have untouched := execution.untouched undelivered
  exact ⟨untouched.reads trivial _ (tmpPath_ne_finalPath config init.name).symm, untouched.noDone⟩

def greetingConfig : Config := ⟨ascii "/srv/recv", ascii "peer", ascii "session"⟩

def greetingInit : InitMessage where
  name := ascii "greeting.txt"
  size := 2
  chunkSize := 65536
  totalChunks := 1
  checksum := ascii "sha256:" ++ hexEncode (sha256 (ascii "hi"))
  offset := 0
  compression := ascii "none"

def greetingEvents : List Event :=
  [.frame ⟨frameTypeData, packDataFrame (.ofTransfer greetingInit) 0 (ascii "hi") .none⟩,
    .frame ⟨frameTypeFin, (Library.ofTransfer greetingInit).marshalFin ⟨1, greetingInit.checksum⟩⟩]

theorem session_integrity_greeting :
    ∃ final, SessionExecutes (.ofTransfer greetingInit) greetingConfig greetingInit
        greetingEvents .empty false (.ok (.ended .delivered)) final ∧
      (∃ bytes, final.files.read (finalPath greetingConfig greetingInit.name) = some bytes ∧
        Certifies greetingInit.checksum bytes) ∧
      Confirmed (.ofTransfer greetingInit) greetingInit greetingEvents := by
  have execution := sessionExecutes_run (.ofTransfer greetingInit) greetingConfig greetingInit
    greetingEvents .empty false
  have delivered : ((session (.ofTransfer greetingInit) greetingConfig greetingInit
      greetingEvents).run handle ⟨.empty, Local.fresh false⟩).1 = .ok (.ended .delivered) := by
    decide +kernel
  rw [delivered] at execution
  exact ⟨_, execution, (session_integrity execution).1 rfl⟩

end Peerscale.RelayFile
