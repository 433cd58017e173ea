import Smtpd.Buffer

namespace Smtpd

open Checked

abbrev INT_MAX : Nat := 2147483647

/-- `++` on an `int`. The number after the last is undefined. -/
def increment (n : Int) : Result Int := if n < INT_MAX then .ok (n + 1) else .error .undefined

theorem increment_ok {n m : Int} (h : increment n = .ok m) : n < INT_MAX ∧ m = n + 1 := by
  unfold increment at h
  split_ifs at h with hroom
  cases h
  exact ⟨hroom, rfl⟩

theorem increment_of_lt {n : Int} (h : n < INT_MAX) : increment n = .ok (n + 1) := if_pos h

theorem increment_full {n : Int} (h : ¬ n < INT_MAX) : increment n = .error .undefined := if_neg h

/-- The `static` variables of the server that all connections and the management socket share. -/
structure Globals where
  historicUsers : Int
  currentUsers : Int
  transferredBytes : Int
  mailsSent : Int
  transformations : Bool
  program : Option (List UInt8)
  maxUser : Int
deriving DecidableEq, Repr

def initialGlobals : Globals :=
  { historicUsers := 0, currentUsers := 0, transferredBytes := 0, mailsSent := 0,
    transformations := false, program := none, maxUser := 500 }

theorem increment_ensures {F : Fault → Prop} (hf : F .undefined) (n : Int) :
    Ensures (fun m => n < INT_MAX ∧ m = n + 1) F (increment n) := by
  by_cases hroom : n < INT_MAX
  · rw [increment_of_lt hroom]
    exact ⟨hroom, rfl⟩
  · rw [increment_full hroom]
    exact hf

/-- One more client can be counted. -/
def Globals.CountsClient (g : Globals) : Prop := g.currentUsers < INT_MAX ∧ g.historicUsers < INT_MAX

instance (g : Globals) : Decidable g.CountsClient := inferInstanceAs (Decidable (_ ∧ _))

def getHistoricUsers (g : Globals) : Int := g.historicUsers
def getCurrentUsers (g : Globals) : Int := g.currentUsers
def getCurrentBytes (g : Globals) : Int := g.transferredBytes
def getCurrentMails (g : Globals) : Int := g.mailsSent
def getCurrentStatus (g : Globals) : Bool := g.transformations
def setNewStatus (g : Globals) (newStatus : Bool) : Globals := { g with transformations := newStatus }
def setMaxUsers (g : Globals) (n : Int) : Globals := { g with maxUser := n }
def getCantMaxUsers (g : Globals) : Int := g.maxUser

end Smtpd
