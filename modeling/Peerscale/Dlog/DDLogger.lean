import Peerscale.Foundation.Machine
import Peerscale.Foundation.NetText
import Peerscale.Foundation.Time

/-! # The debounced logger

Equal messages are counted until the timer fires, another message comes or the process ends.
A timer that has been replaced may fire late: it finds another generation or another entry. The
goroutines meet at a mutex, so that each call is one action.
-/

namespace Peerscale.Dlog

open List

def debounceDelay : Duration := second

/-- `address` tells entries apart, which are numbered as they are made. `count`, an int, is
assumed not to overflow. -/
structure DdEntry where
  address : Nat
  firstFull : GoString
  count : Nat
  firstAt : Time

/-- What a closure that is given to `trig` has captured. -/
structure Callback where
  gen : UInt64
  entry : Nat
  deriving DecidableEq

structure DDLogger where
  curKey : GoString
  cur : Option DdEntry
  gen : UInt64
  made : Nat
  callbacks : List Callback
  printed : List DdEntry
  stderr : Bytes
  nilDereference : Bool

/-- A call of `Printf`, from a line of a file, with what the clock shows before the lock. -/
structure Call where
  file : GoString
  line : Nat
  msg : GoString
  now : Time

inductive Action
  | printf (call : Call)
  | fire (index : Nat)
  | exitFlush

def Action.calls : Action → Nat
  | .printf _ => 1
  | .fire _ | .exitFlush => 0

def Call.key (call : Call) : GoString :=
  call.file ++ ascii ":" ++ itoa call.line ++ ascii ": " ++ call.msg

def printEntry (entry : DdEntry) : Bytes :=
  if 1 < entry.count then entry.firstFull ++ ascii " [x" ++ itoa entry.count ++ ascii "]\n"
  else entry.firstFull ++ ascii "\n"

namespace DDLogger

def new : DDLogger := ⟨[], none, 0, 0, [], [], [], false⟩

variable (format : Time → GoString) (d : DDLogger) (call : Call)

def print (entry : DdEntry) : DDLogger :=
  { d with printed := d.printed ++ [entry], stderr := d.stderr ++ printEntry entry }

def clear : DDLogger := { d with cur := none, curKey := [] }

def trig (entry : DdEntry) : DDLogger :=
  { d with gen := d.gen + 1, callbacks := d.callbacks ++ [⟨d.gen + 1, entry.address⟩] }

/-- The entry that is pending if `Printf` begins one. -/
def entry : DdEntry := ⟨d.made, format call.now ++ ascii " " ++ call.key, 1, call.now⟩

def begin : DDLogger :=
  { d.trig (d.entry format call) with
    cur := some (d.entry format call), curKey := call.key, made := d.made + 1 }

def printf : DDLogger :=
  match d.cur with
  | none => if call.key == d.curKey then { d with nilDereference := true } else d.begin format call
  | some cur =>
    if call.key == d.curKey && decide (Time.sub call.now cur.firstAt < debounceDelay) then
      { d.trig cur with cur := some { cur with count := cur.count + 1 } }
    else (d.print cur).begin format call

def exitFlush : DDLogger :=
  match d.cur with
  | none => d
  | some cur => (d.print cur).clear

def flush (callback : Callback) : DDLogger :=
  match d.cur with
  | none => d
  | some cur => if callback = ⟨d.gen, cur.address⟩ then (d.print cur).clear else d

def machine : Machine DDLogger Action where
  act d action := match action with
    | .printf call => d.printf format call
    | .fire index => (d.callbacks[index]?).elim d d.flush
    | .exitFlush => d.exitFlush

def entries : List DdEntry := d.printed ++ d.cur.toList

structure Sound (n : Nat) (d : DDLogger) : Prop where
  counted : (d.entries.map DdEntry.count).sum = n
  numbered : d.entries.map DdEntry.address = range d.made
  keyed : d.curKey = [] ↔ d.cur = none
  latest : ∀ cur, d.cur = some cur → d.callbacks.getLast? = some ⟨d.gen, cur.address⟩
  safe : d.nilDereference = false

end DDLogger

theorem Call.key_ne (call : Call) : call.key ≠ [] := by
  simp [key, ascii]

namespace DDLogger

variable {format : Time → GoString} {d : DDLogger} {n : Nat} {cur : DdEntry}

theorem Sound.begin (sound : d.Sound n) (printed : d.printed = d.entries) (call : Call) :
    (d.begin format call).Sound (n + 1) := by
  have made : (d.begin format call).entries = d.entries ++ [d.entry format call] :=
    congrArg (· ++ _) printed
  constructor
  · rw [made, map_append, sum_append, sound.counted]
    rfl
  · rw [made, map_append, sound.numbered]
    exact range_succ.symm
  · exact iff_of_false call.key_ne nofun
  · rintro cur ⟨⟩
    exact getLast?_concat
  · exact sound.safe

theorem Sound.merge (sound : d.Sound n) (pending : d.cur = some cur) :
    { d.trig cur with cur := some { cur with count := cur.count + 1 } : DDLogger }.Sound
      (n + 1) := by
  have counted := sound.counted
  have numbered := sound.numbered
  rw [entries, pending] at counted numbered
  constructor
  · simp [entries, trig] at counted ⊢
    omega
  · simpa [entries, trig] using numbered
  · exact iff_of_false (fun empty => by simpa [pending] using sound.keyed.mp empty) nofun
  · rintro cur ⟨⟩
    exact getLast?_concat
  · exact sound.safe

theorem entries_print (pending : d.cur = some cur) : (d.print cur).clear.entries = d.entries := by
  simp [entries, print, clear, pending]

theorem Sound.clear (sound : d.Sound n) (pending : d.cur = some cur) :
    (d.print cur).clear.Sound n where
  counted := entries_print pending ▸ sound.counted
  numbered := entries_print pending ▸ sound.numbered
  keyed := iff_of_true rfl rfl
  latest := nofun
  safe := sound.safe

theorem Sound.printf (sound : d.Sound n) (call : Call) : (d.printf format call).Sound (n + 1) := by
  rw [DDLogger.printf]
  split
  case h_1 idle =>
    rw [sound.keyed.mpr idle, if_neg (by simpa using call.key_ne)]
    exact sound.begin (by simp [entries, idle]) call
  case h_2 cur pending =>
    split
    · exact sound.merge pending
    -- A new entry does not depend on the key and the entry that it replaces.
    · exact (sound.clear pending).begin (by simp [entries, DDLogger.clear]) call

theorem Sound.act (sound : d.Sound n) (a : Action) :
    ((machine format).act d a).Sound (n + a.calls) := by
  cases a with
  | printf call => exact sound.printf call
  | fire index =>
    change ((d.callbacks[index]?).elim d d.flush).Sound n
    cases d.callbacks[index]? with
    | none => exact sound
    | some callback =>
      change (d.flush callback).Sound n
      rw [flush]
      split
      · exact sound
      case h_2 cur pending =>
        split
        · exact sound.clear pending
        · exact sound
  | exitFlush =>
    change d.exitFlush.Sound n
    rw [exitFlush]
    split
    · exact sound
    case h_2 cur pending => exact sound.clear pending

theorem sound_run (acts : List Action) :
    ((machine format).run new acts).Sound (acts.map Action.calls).sum := by
  induction acts using reverseRecOn with
  | nil => exact ⟨rfl, rfl, iff_of_true rfl rfl, nofun, rfl⟩
  | append_singleton acts a ih =>
    rw [Machine.run_concat, map_append, sum_append]
    exact ih.act a

end DDLogger

end Peerscale.Dlog
