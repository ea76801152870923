import CdPraticas.Groups
import CdPraticas.Store

/-!
# Messages between the servers

The nine message types of the storage cluster, the membership messages that
Spread itself sends, and what is in flight.
-/

namespace CdPraticas.Messages
open Groups Store

/-- The messages of `com.isel.cd.server.messages`. -/
inductive Message
  | askData (key : String)
  | askDataResponse (dataDto : DataDto)
  | startupRequestUpdate (dataDtoList : List DataDto)
  | startupResponseUpdate (dataDtoList : List DataDto)
  | wantToWrite (data : DataDto)
  | wantToWriteResponse (key : String)
  | writeConflict (dataDto : DataDto)
  | dataWritten (key : String)
  | revalidateData (key : String)
  deriving DecidableEq

/-- What caused a membership message. -/
inductive Cause
  | join | leave | disconnect | network
  deriving DecidableEq

/-- `getMembers()` is null unless the message is a regular membership message. -/
structure MembershipInfo where
  isRegularMembership : Bool
  cause : Cause
  members : List SpreadGroup
  deriving DecidableEq

inductive Body
  | regular (message : Message)
  | membership (info : MembershipInfo)
  deriving DecidableEq

/-- A message on its way to one member. `call` is the client call it goes back
    to; it is not part of the message and no handler reads it. -/
structure Packet where
  receiver : SpreadGroup
  sender : SpreadGroup
  body : Body
  call : Option Nat
  deriving DecidableEq

/-- A message handed to the connection, for the whole group or for one member. -/
inductive Send
  | multicast (message : Message)
  | unicast (message : Message) (group : SpreadGroup)
  deriving DecidableEq

def Send.message : Send → Message
  | .multicast message | .unicast message _ => message

/-- The copies that one message is delivered as: one for each member of the
    group at that moment, or one for the addressee. -/
def Send.packets (members : List SpreadGroup) (sender : SpreadGroup) (call : Option Nat) : Send → Multiset Packet
  | .multicast message => (members.map fun member => ⟨member,sender,.regular message,call⟩ : List Packet)
  | .unicast message group => {⟨group,sender,.regular message,call⟩}

def packets (members : List SpreadGroup) (sender : SpreadGroup) (call : Option Nat) (sends : List Send) :
    Multiset Packet :=
  (sends.map (Send.packets members sender call)).sum

/-- The key a message is about; a startup message is about many. -/
def Message.key? : Message → Option String
  | .askData key | .wantToWriteResponse key | .dataWritten key | .revalidateData key => some key
  | .askDataResponse dataDto | .wantToWrite dataDto | .writeConflict dataDto => some dataDto.key
  | .startupRequestUpdate _ | .startupResponseUpdate _ => none

def Body.key? : Body → Option String
  | .regular message => message.key?
  | .membership _ => none

def Packet.About (key : String) (packet : Packet) : Prop := packet.body.key? = some key

instance (key : String) : DecidablePred (Packet.About key) := fun packet =>
  inferInstanceAs (Decidable (packet.body.key? = some key))

@[simp] theorem packets_nil (members : List SpreadGroup) (sender : SpreadGroup) (call : Option Nat) :
    packets members sender call [] = 0 := rfl
@[simp] theorem packets_multicast (members : List SpreadGroup) (sender : SpreadGroup) (call : Option Nat)
    (message : Message) : packets members sender call [.multicast message] =
      (members.map fun member => ⟨member,sender,.regular message,call⟩ : List Packet) := by
  simp [packets,Send.packets]
@[simp] theorem packets_unicast (members : List SpreadGroup) (sender group : SpreadGroup) (call : Option Nat)
    (message : Message) : packets members sender call [.unicast message group] =
      {⟨group,sender,.regular message,call⟩} := by
  simp [packets,Send.packets]

theorem mem_packets {members : List SpreadGroup} {sender : SpreadGroup} {call : Option Nat} {sends : List Send} {packet : Packet} :
    packet ∈ packets members sender call sends ↔ ∃ send ∈ sends, packet ∈ send.packets members sender call := by
  induction sends with
  | nil => simp
  | cons send rest ih =>
    rw [packets,List.map_cons,List.sum_cons,Multiset.mem_add]
    simpa [packets] using or_congr_right ih

/-- The packets of some sends carry what the sends do. -/
theorem packets_carry {members : List SpreadGroup} {sender : SpreadGroup} {call : Option Nat} {sends : List Send}
    {packet : Packet} (member : packet ∈ packets members sender call sends) :
    packet.sender = sender ∧ ∃ send ∈ sends, packet.body = .regular send.message := by
  obtain ⟨send,inside,sent⟩ := mem_packets.mp member
  cases send with
  | multicast message =>
    obtain ⟨_,_,rfl⟩ := List.mem_map.mp (Multiset.mem_coe.mp sent)
    exact ⟨rfl,_,inside,rfl⟩
  | unicast message group =>
    rw [Multiset.mem_singleton.mp sent]
    exact ⟨rfl,_,inside,rfl⟩

end CdPraticas.Messages
