import CdPraticas.Replicas

/-!
# What a server decides alone

The vote of a follower on the leader's data, and whom the servers take for
their leader when the one they knew has left.
-/

namespace CdPraticas.Followers
open Groups Replicas

/-! ### Votes -/

section
variable (self : LeaderManager) (transactionId : Nat) (key data : String)

/-- A follower votes once for the transaction, and the vote says whether it has
    the data under the key. -/
def VotesTruth : Prop :=
  (handleVoteRequest self transactionId key data).vote = some (transactionId,decide (self.database key = some data))

/-- It does exactly when it has a channel and some data under the key that
    differs from the other in its hash if at all. -/
theorem votesTruth_iff (follows : self.amILeader = false) :
    VotesTruth self transactionId key data ↔ self.channel = true ∧
      ∃ localData, self.database key = some localData ∧ (hashCode localData = hashCode data → localData = data) := by
  simp only [VotesTruth,handleVoteRequest,follows]
  cases stored : self.database key with
  | none => simp
  | some localData =>
    cases self.channel with
    | false => simp
    | true =>
      by_cases same : localData = data
      · simp [same]
      · by_cases collide : hashCode localData = hashCode data <;> simp [same,collide]

end

/-- A follower of Server1 without data. -/
def empty : LeaderManager := { LeaderManager.new (serverName 2) ['h'] with leaderServerName := serverName 1, channel := true }

theorem votesTruth_iff_empty : VotesTruth (empty.put "k" "old") 7 "k" "new" ↔ (empty.put "k" "old").channel = true ∧
    ∃ localData, (empty.put "k" "old").database "k" = some localData ∧ (hashCode localData = hashCode "new" → localData = "new") :=
  votesTruth_iff _ 7 "k" "new" (by decide)

/-- Without data under the key it does not vote. -/
theorem no_vote_without_value :
    ¬ ∀ (self : LeaderManager) (transactionId : Nat) (key data : String), self.amILeader = false →
      VotesTruth self transactionId key data := by
  intro votes
  have cast : (handleVoteRequest empty 7 "k" "d").vote = some (7,decide (empty.database "k" = some "d")) := votes empty 7 "k" "d" (by decide)
  have silent : (handleVoteRequest empty 7 "k" "d").vote = none := rfl
  cases silent.symm.trans cast

/-- Two strings with one hash have one hash between any other two. -/
theorem hashCode_collide (before after : List Char) :
    hashCode (String.ofList (before ++ 'A' :: 'a' :: after)) = hashCode (String.ofList (before ++ 'B' :: 'B' :: after)) := by
  simp only [hashCode,String.toList_ofList,List.flatMap_append,List.flatMap_cons,List.foldl_append]
  congr 1
  generalize (before.flatMap units).foldl _ 0 = hash
  have one : units 'A' = [65] ∧ units 'a' = [97] ∧ units 'B' = [66] := by decide
  simp only [one,List.foldl_cons,List.foldl_nil]
  omega

/-- A follower with the one votes for the other. -/
theorem votes_for_other (self : LeaderManager) (transactionId : Nat) (key : String) (before after : List Char)
    (follows : self.amILeader = false) (channel : self.channel = true)
    (stored : self.database key = some (String.ofList (before ++ 'A' :: 'a' :: after))) :
    (handleVoteRequest self transactionId key (String.ofList (before ++ 'B' :: 'B' :: after))).vote = some (transactionId,true) := by
  have same := hashCode_collide before after
  simp only [handleVoteRequest,follows,channel,stored,same,if_true,beq_self_eq_true]
  rfl

/-! ### Elections -/

/-- A decimal number as it is written. -/
structure Decimal where
  digits : List Char
  written : digits ≠ []
  decimal : ∀ c ∈ digits, c.isDigit = true

def Decimal.value (number : Decimal) : Nat := Nat.ofDigitChars 10 number.digits 0

/-- A member of the group, with its host. -/
inductive Member
  | server (number : Decimal) (host : List Char)
  | service (host : List Char)

def Member.name : Member → List Char
  | .server number _ => "Server".toList ++ number.digits
  | .service _ => "Service".toList

def Member.group : Member → SpreadGroup
  | .server number host => privateGroup ("Server".toList ++ number.digits) host
  | .service host => privateGroup "Service".toList host

def Member.number : Member → Option Decimal
  | .server number _ => some number
  | .service _ => none

/-- `notifyServerLeave` with what it throws: `none` where a name has no number. -/
def notifyServerLeaveThrows (self : LeaderManager) (group : SpreadGroup) (members : List SpreadGroup) : Option Outcome :=
  match getServerName group with
  | none => none
  | some gone =>
    if gone = self.leaderServerName then
      match maxCardinality members 0 with
      | none => none
      | some max => some (notifyIfLeader { self with leaderServerName := serverName max })
    else some (notifyIfLeader self)

/-- What is thrown is caught by the listener, and nothing has been done. -/
theorem notifyServerLeave_eq (self : LeaderManager) (group : SpreadGroup) (members : List SpreadGroup) :
    notifyServerLeave self group members = (notifyServerLeaveThrows self group members).getD ⟨self,[],none⟩ := by
  unfold notifyServerLeave notifyServerLeaveThrows
  cases getServerName group with
  | none => rfl
  | some gone =>
    dsimp only
    split
    · cases maxCardinality members 0 <;> rfl
    · rfl

/-- The election names a member that no other exceeds. -/
def ElectsHighest (self : LeaderManager) (group : SpreadGroup) (members : List Member) : Prop :=
  ∃ outcome, notifyServerLeaveThrows self group (members.map Member.group) = some outcome ∧
    (members.filterMap Member.number ≠ [] → ∃ best ∈ members.filterMap Member.number,
      outcome.manager.leaderServerName = "Server".toList ++ best.digits ∧
        ∀ other ∈ members.filterMap Member.number, other.value ≤ best.value)

theorem Member.server_name (number : Decimal) (host : List Char) :
    (Member.server number host).name = "Server".toList ++ number.digits := rfl

theorem Member.group_name (member : Member) : getServerName member.group = some member.name := by
  cases member with
  | server number host =>
    refine getServerName_privateGroup host ?_ (by simp)
    intro inside
    rcases List.mem_append.mp inside with early | late
    · revert early
      decide
    · exact absurd (number.decimal _ late) (by decide)
  | service host => exact getServerName_privateGroup host (by decide) (by decide)

/-- The election reads the last digit of a number. -/
theorem Decimal.lastDigit (number : Decimal) : Groups.lastDigit ("Server".toList ++ number.digits) = some (number.value % 10) := by
  obtain ⟨front,last,split⟩ := List.eq_nil_or_concat number.digits |>.resolve_left number.written
  have digit : last.isDigit = true := number.decimal last (by simp [split])
  obtain ⟨low,high⟩ := Char.isDigit_iff_toNat.mp digit
  have bounds : 48 ≤ last.toNat ∧ last.toNat ≤ 57 := ⟨low,high⟩
  have value : number.value = 10 * Nat.ofDigitChars 10 front 0 + (last.toNat - 48) := by
    simp [Decimal.value,split,Nat.ofDigitChars_eq_foldl]
  have read : ("Server".toList ++ number.digits).getLast? = some last := by
    rw [split,List.concat_eq_append,← List.append_assoc,List.getLast?_concat]
  simp only [Groups.lastDigit,read,digit,if_true,value]
  congr 1
  have zero : '0'.toNat = 48 := rfl
  omega

/-- The loop throws at the first member without a number, -/
theorem maxCardinality_service {members : List Member} (service : ∃ member ∈ members, member.number = none) (start : Nat) :
    maxCardinality (members.map Member.group) start = none := by
  induction members generalizing start with
  | nil => obtain ⟨_,none,_⟩ := service; cases none
  | cons member rest ih =>
    obtain ⟨throws,inside,none⟩ := service
    simp only [List.map_cons,maxCardinality,Member.group_name,Option.bind_some]
    cases member with
    | service host => rfl
    | server number host =>
      simp only [Member.server_name,number.lastDigit]
      refine ih ⟨throws,?_,none⟩ _
      rcases List.mem_cons.mp inside with rfl | later
      · cases none
      · exact later

/-- and finds the highest last digit otherwise. -/
theorem maxCardinality_servers {members : List Member} (servers : ∀ member ∈ members, member.number ≠ none) (start : Nat) :
    ∃ max, maxCardinality (members.map Member.group) start = some max ∧ start ≤ max ∧
      (∀ number ∈ members.filterMap Member.number, number.value % 10 ≤ max) ∧
      (max = start ∨ ∃ number ∈ members.filterMap Member.number, max = number.value % 10) := by
  induction members generalizing start with
  | nil => exact ⟨start,rfl,le_rfl,by simp,.inl rfl⟩
  | cons member rest ih =>
    cases member with
    | service host => exact absurd rfl (servers _ List.mem_cons_self)
    | server number host =>
      obtain ⟨max,found,above,highest,reached⟩ := ih (fun member inside => servers member (List.mem_cons_of_mem _ inside))
        (if number.value % 10 > start then number.value % 10 else start)
      have bounds : start ≤ max ∧ number.value % 10 ≤ max := by
        split_ifs at above <;> omega
      refine ⟨max,?_,bounds.1,?_,?_⟩
      · simp only [List.map_cons,maxCardinality,Member.group_name,Option.bind_some,Member.server_name,number.lastDigit]
        exact found
      · intro other inside
        rcases List.mem_cons.mp inside with rfl | later
        · exact bounds.2
        · exact highest other later
      · rcases reached with same | ⟨other,inside,same⟩
        · split_ifs at same
          · exact .inr ⟨number,List.mem_cons_self,same⟩
          · exact .inl same
        · exact .inr ⟨other,List.mem_cons_of_mem _ inside,same⟩

/-- A number of one digit is written as the election writes it. -/
theorem Decimal.digits_of_single (number : Decimal) (single : number.digits.length = 1) :
    number.value < 10 ∧ Nat.toDigits 10 number.value = number.digits := by
  obtain ⟨c,only⟩ := List.length_eq_one_iff.mp single
  obtain ⟨low,high⟩ := Char.isDigit_iff_toNat.mp (number.decimal c (by simp [only]))
  have bounds : 48 ≤ c.toNat ∧ c.toNat ≤ 57 := ⟨low,high⟩
  have value : number.value = c.toNat - 48 := by simp [Decimal.value,only,Nat.ofDigitChars_eq_foldl]
  have small : number.value < 10 := by omega
  refine ⟨small,?_⟩
  rw [Nat.toDigits_of_lt_base small,only]
  congr 1
  apply Char.toNat_inj.mp
  rw [Nat.toNat_digitChar_of_lt_ten small,value]
  omega

/-- The election names the highest member exactly when every member has a
    number and the highest of them is written with one digit. -/
theorem electsHighest_iff (self : LeaderManager) (group : SpreadGroup) (members : List Member)
    (left : getServerName group = some self.leaderServerName) :
    ElectsHighest self group members ↔ (∀ member ∈ members, member.number ≠ none) ∧
      (members.filterMap Member.number ≠ [] → ∃ best ∈ members.filterMap Member.number,
        best.digits.length = 1 ∧ ∀ other ∈ members.filterMap Member.number, other.value ≤ best.value) := by
  by_cases servers : ∀ member ∈ members, member.number ≠ none
  case neg =>
    refine ⟨fun ⟨outcome,elected,_⟩ => ?_,fun ⟨all,_⟩ => absurd all servers⟩
    push Not at servers
    simp only [notifyServerLeaveThrows,left,if_true,maxCardinality_service servers] at elected
    cases elected
  case pos =>
    obtain ⟨max,found,_,highest,reached⟩ := maxCardinality_servers servers 0
    have small : max < 10 := by
      rcases reached with none | ⟨number,_,digit⟩ <;> omega
    have elected : notifyServerLeaveThrows self group (members.map Member.group) =
        some (notifyIfLeader { self with leaderServerName := serverName max }) := by
      simp only [notifyServerLeaveThrows,left,if_true,found]
    have leader : (notifyIfLeader { self with leaderServerName := serverName max }).manager.leaderServerName = serverName max := by
      unfold notifyIfLeader sendIAmLeaderMessage
      split <;> rfl
    refine ⟨fun ⟨outcome,done,names⟩ => ⟨servers,fun some => ?_⟩,fun ⟨_,single⟩ => ⟨_,elected,fun some => ?_⟩⟩
    · obtain rfl := Option.some.inj (elected.symm.trans done)
      obtain ⟨best,inside,name,above⟩ := names some
      refine ⟨best,inside,?_,above⟩
      have digits : Nat.toDigits 10 max = best.digits := List.append_cancel_left (leader.symm.trans name)
      rw [← digits,Nat.toDigits_of_lt_base small]
      rfl
    · obtain ⟨best,inside,one,above⟩ := single some
      obtain ⟨digit,written⟩ := best.digits_of_single one
      refine ⟨best,inside,?_,above⟩
      have atLeast := highest best inside
      have atMost : max ≤ best.value := by
        rcases reached with none | ⟨number,member,digit⟩
        · omega
        · have below := above number member
          omega
      have same : max = best.value := by omega
      rw [leader,serverName_eq,same,written]

def five : Decimal := ⟨['5'],List.cons_ne_nil _ _,List.all_eq_true.mp rfl⟩
def seven : Decimal := ⟨['7'],List.cons_ne_nil _ _,List.all_eq_true.mp rfl⟩
def nine : Decimal := ⟨['9'],List.cons_ne_nil _ _,List.all_eq_true.mp rfl⟩
def ten : Decimal := ⟨['1','0'],List.cons_ne_nil _ _,List.all_eq_true.mp rfl⟩

/-- A server that follows Server3. -/
def three : LeaderManager := { LeaderManager.new (serverName 9) ['h'] with leaderServerName := serverName 3, channel := true }

theorem electsHighest_iff_nine :
    ElectsHighest three (privateGroup (serverName 3) ['h']) [.server seven ['g'],.server nine ['h'],.server five ['h']] := by
  refine (electsHighest_iff three _ _ (by decide)).mpr ⟨by decide,fun _ => ⟨nine,List.mem_cons_of_mem seven List.mem_cons_self,rfl,?_⟩⟩
  decide

/-- Server10 is higher than Server9. -/
theorem elects_lower :
    ¬ ∀ (self : LeaderManager) (group : SpreadGroup) (members : List Member), getServerName group = some self.leaderServerName →
      ElectsHighest self group members := by
  intro elects
  obtain ⟨outcome,done,names⟩ := elects three (privateGroup (serverName 3) ['h']) [.server nine ['h'],.server ten ['h']] (by decide)
  have elected : (notifyServerLeaveThrows three (privateGroup (serverName 3) ['h'])
      ([.server nine ['h'],.server ten ['h']].map Member.group)).map (fun outcome => outcome.manager.leaderServerName) =
        some (serverName 9) := by decide
  obtain ⟨best,inside,name,above⟩ := names (List.cons_ne_nil nine [ten])
  rw [done,Option.map_some,name] at elected
  have digits : best.digits = ['9'] := List.append_cancel_left (Option.some.inj elected)
  have tenth := above ten (List.mem_cons_of_mem nine List.mem_cons_self)
  simp only [Decimal.value,digits] at tenth
  exact absurd tenth (by decide)

end CdPraticas.Followers
