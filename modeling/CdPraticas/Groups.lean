import Mathlib

/-!
# Private group names

A member of a Spread group is known by its private group `#name#host`. The
servers and the configuration service read the name and the host out of it,
and the servers order themselves by the last digits of the two.
-/

namespace CdPraticas.Groups

/-- A private group, by its string. -/
structure SpreadGroup where
  toString : String
  deriving DecidableEq

/-- What caused a regular membership message, with the member it names. -/
inductive Change
  | join (joined : SpreadGroup)
  | leave (left : SpreadGroup)
  | disconnect (disconnected : SpreadGroup)
  | network
  deriving DecidableEq

/-- A regular membership message: its cause and the members of the new view. -/
structure View where
  change : Change
  members : List SpreadGroup
  deriving DecidableEq

/-- The private group that Spread gives to a connection made under a name. -/
def privateGroup (name host : List Char) : SpreadGroup := ⟨String.ofList ('#' :: name ++ '#' :: host)⟩

/-- The pieces of `toString().split("#")`: Java drops the empty ones at the end. -/
def pieces (group : SpreadGroup) : List (List Char) :=
  (group.toString.toList.splitOn '#').rdropWhile (fun piece => piece.isEmpty)

/-- `split("#")[1]`; `none` where Java throws for a missing piece. -/
def getServerName (group : SpreadGroup) : Option (List Char) := (pieces group)[1]?
/-- `split("#")[2]`. -/
def getServerIp (group : SpreadGroup) : Option (List Char) := (pieces group)[2]?

/-- `Integer.parseInt(text.substring(text.length()-1))`; `none` where it throws. -/
def lastDigit (text : List Char) : Option Nat :=
  match text.getLast? with
  | some c => if c.isDigit then some (c.toNat - '0'.toNat) else none
  | none => none

/-- The priority of a member; `none` where reading it throws. -/
def getServerNameCardinality (isLocal : Bool) (group : SpreadGroup) : Option Nat :=
  match getServerName group, getServerIp group with
  | some server, some ip =>
    if isLocal then lastDigit server
    else
      match lastDigit server, lastDigit ip with
      | some a, some b => some (a + b)
      | _, _ => none
  | _, _ => none

/-- The member under which the configuration service joins the group. -/
def isService (group : SpreadGroup) : Bool := getServerName group == some "Service".toList

/-- Dropping at the end stops at the last element that is kept. -/
theorem rdropWhile_after {α : Type*} {p : α → Bool} {kept : α} (front rest : List α) (stays : p kept = false) :
    (front ++ kept :: rest).rdropWhile p = front ++ kept :: rest.rdropWhile p := by
  induction rest using List.reverseRecOn with
  | nil => simpa using List.rdropWhile_concat_neg p front kept (by simp [stays])
  | append_singleton rest last ih =>
    have whole : front ++ kept :: (rest ++ [last]) = (front ++ kept :: rest) ++ [last] := by simp
    rw [whole,List.rdropWhile_concat,List.rdropWhile_concat]
    split
    · exact ih
    · exact whole.symm

theorem getServerName_privateGroup {name : List Char} (host : List Char) (clean : '#' ∉ name) (named : name ≠ []) :
    getServerName (privateGroup name host) = some name := by
  have split : ('#' :: name ++ '#' :: host).splitOn '#' = [[]] ++ name :: host.splitOn '#' := by
    have first : (([] : List Char) ++ '#' :: (name ++ '#' :: host)).splitOn '#' = _ :=
      List.splitOn_append_cons_self_of_not_mem (by simp) _
    rw [List.splitOn_append_cons_self_of_not_mem clean] at first
    exact first
  have stays : name.isEmpty = false := by simpa using named
  simp only [getServerName,pieces,privateGroup,String.toList_ofList,split,
    rdropWhile_after (p := fun piece => piece.isEmpty) [[]] (host.splitOn '#') stays]
  rfl

example : getServerNameCardinality false ⟨"#Server3#host4"⟩ = some 7 := by decide
example : isService ⟨"#Service#host1"⟩ = true := by decide

end CdPraticas.Groups
