import CdPraticas.Leadership

/-!
# When the members agree on a leader

A group that has come to rest agrees on one leader exactly as long as every
election is won by a server that knew the one that left, and no late
announcement stays the last that a member hears.
-/

namespace CdPraticas.Agreement
open Groups Replicas ReplicaGroup Elections Leadership Runs

section
variable {e e' : Election} {a : Action}

/-- No member is higher. -/
def Highest (e : Election) (server : Nat) : Prop := ∀ member ∈ e.members, cardinality e member ≤ cardinality e server

/-- What brings `server`, while it has the given belief, to believe in `leader`
    without any further change of the group. -/
inductive Mends (e : Election) (leader server : Nat) (belief : List Char) : Prop
  | told (flying : ⟨server,.newLeader (e.name leader)⟩ ∈ e.network)
  | asked (flying : ⟨leader,.whoIsLeader⟩ ∈ e.network)
  /-- the leader has still to handle that a server left, and then announces itself -/
  | announces (gone : e.gone?.isSome) (due : leader ∈ e.unhandled)
  /-- the server takes the one that left for the leader and has still to elect -/
  | elects {gone : SpreadGroup} (left : e.gone? = some gone) (believed : getServerName gone = some belief)
      (due : server ∈ e.unhandled) (highest : Highest e leader)
  /-- a member without a leader has still to handle a join, and then asks -/
  | asks {joined : SpreadGroup} (other : Nat) (join : e.view.change = .join joined) (more : e.view.members.length ≠ 1)
      (due : other ∈ e.unhandled) (none : e.leader other = [])
      (untold : ∀ name, ⟨other,.newLeader name⟩ ∈ e.network → name = e.name other)

/-- An announcement that does not name the leader there is comes to another
    member only while something mends this, and to the leader only while it is
    about to be elected again. An election is won by a server that took the one
    that left for the leader. -/
def Informed (e : Election) : Action → Prop
  | .deliver ⟨server,.newLeader name⟩ =>
    name = e.name server ∨ ∀ leader ∈ e.members, e.leader leader = e.name leader → name = e.name leader ∨
      (server = leader ∧ e.gone?.isSome ∧ leader ∈ e.unhandled ∧ Highest e leader) ∨
      (server ≠ leader ∧ Mends e leader server name)
  | .handle server =>
    ∀ gone, e.gone? = some gone → (∀ member ∈ e.members, e.leader member ≠ e.name member) → Highest e server →
      getServerName gone = some (e.leader server)
  | _ => True

/-- One member leads, and the others believe in it or will. -/
def Led (e : Election) : Prop :=
  ∃ leader, Leads e leader ∧ ∀ member ∈ e.members, e.leader member = e.name leader ∨
    Mends e leader member (e.leader member)

/-- A server left, nobody leads and the highest member has still to handle it. -/
def Electing (e : Election) : Prop :=
  (∀ member, ¬ Leads e member) ∧ e.gone?.isSome ∧ ∃ member ∈ e.unhandled, Highest e member

/-- The only member has still to handle its own join. -/
def Founding (e : Election) : Prop :=
  ∃ server joined, e.members = [server] ∧ e.unhandled = [server] ∧ e.view.change = .join joined

inductive Agreed (e : Election) : Prop
  | empty (none : e.members = [])
  | founding (founding : Founding e)
  | electing (electing : Electing e)
  | led (led : Led e)

theorem Founding.not_gone (founding : Founding e) : e.gone? = none := by
  obtain ⟨_,_,_,_,join⟩ := founding
  simp [Election.gone?,join]

theorem not_gone_of_join {joined : SpreadGroup} (join : e.view.change = .join joined) : e.gone? = none := by
  simp [Election.gone?,join]

/-- Once all is handled and nothing is in flight, nothing is left to mend. -/
theorem Led.settled (led : Led e) (handled : e.unhandled = []) (quiet : e.network = 0) :
    ∃ leader, Leads e leader ∧ ∀ member ∈ e.members, e.leader member = e.name leader := by
  obtain ⟨leader,leads,believe⟩ := led
  refine ⟨leader,leads,fun member inside => (believe member inside).resolve_right fun mends => ?_⟩
  cases mends with
  | told flying | asked flying => simp [quiet] at flying
  | announces _ due | elects _ _ due _ | asks _ _ _ due _ _ => simp [handled] at due

theorem Agreed.settled (agreed : Agreed e) (some : e.members ≠ []) (handled : e.unhandled = []) (quiet : e.network = 0) :
    ∃ leader, Leads e leader ∧ ∀ member ∈ e.members, e.leader member = e.name leader := by
  cases agreed with
  | empty none => exact absurd none some
  | founding founding =>
    obtain ⟨_,_,_,due,_⟩ := founding
    simp [handled] at due
  | electing electing =>
    obtain ⟨_,_,member,due,_⟩ := electing
    simp [handled] at due
  | led led => exact led.settled handled quiet

/-- Where nothing is left to handle, the group is empty or led. -/
theorem Agreed.idle (agreed : Agreed e) (idle : e.unhandled = []) : e.members = [] ∨ Led e := by
  cases agreed with
  | empty none => exact .inl none
  | founding founding =>
    obtain ⟨_,_,_,due,_⟩ := founding
    simp [idle] at due
  | electing electing =>
    obtain ⟨_,_,member,due,_⟩ := electing
    simp [idle] at due
  | led led => exact .inr led

theorem exists_highest {members : List Nat} (value : Nat → Nat) (some : members ≠ []) :
    ∃ member ∈ members, ∀ other ∈ members, value other ≤ value member := by
  obtain ⟨member,inside,highest⟩ := members.toFinset.exists_max_image value
    (List.toFinset_nonempty_iff members |>.mpr some)
  exact ⟨member,List.mem_toFinset.mp inside,fun other also => highest other (List.mem_toFinset.mpr also)⟩

theorem Agreed.join (agreed : Agreed e) (standing : Standing e) {name host : List Char}
    (step : ElectionStep e (.join name host) e') : Agreed e' := by
  cases step with
  | elsewhere => exact agreed
  | join idle =>
    have fresh : ∀ member ∈ e.members, member ≠ e.started := fun member inside => (standing.known member inside).ne
    rcases agreed.idle idle with none | ⟨leader,leads,believe⟩
    · exact .founding ⟨e.started,privateGroup name host,by simp [none],by simp [none],rfl⟩
    · refine .led ⟨leader,⟨List.mem_append_left _ leads.1,?_⟩,fun member inside => ?_⟩
      · simpa [Function.update_of_ne (fresh leader leads.1)] using leads.2
      have sameName : Function.update e.name e.started name leader = e.name leader :=
        Function.update_of_ne (fresh leader leads.1) _ _
      rcases List.mem_append.mp inside with old | one
      · have sameLeader : Function.update e.leader e.started [] member = e.leader member :=
          Function.update_of_ne (fresh member old) _ _
        simp only [sameLeader,sameName]
        refine (believe member old).imp_right fun mends => ?_
        cases mends with
        | told flying => exact .told (by simpa only [sameName] using flying)
        | asked flying => exact .asked flying
        | announces _ due | elects _ _ due _ | asks _ _ _ due _ _ => simp [idle] at due
      · rw [List.mem_singleton.mp one]
        refine .inr (.asks e.started rfl ?_ (by simp) (by simp) fun other flying => ?_)
        · have : e.members ≠ [] := List.ne_nil_of_mem leads.1
          simpa using this
        · exact absurd rfl (fresh _ (standing.flying _ flying))

theorem Agreed.depart (agreed : Agreed e) (standing : Standing e) (later : Later e) {server : Nat} {left : Bool}
    (step : ElectionStep e (.depart server left) e') : Agreed e' := by
  cases step with
  | elsewhere => exact agreed
  | depart idle member =>
    obtain ⟨leader,leads,_⟩ := (agreed.idle idle).resolve_left (List.ne_nil_of_mem member)
    have gone (view : View) : (Election.gone? { e with
        members := e.members.erase server
        view := ⟨if left then .leave (e.group server) else .disconnect (e.group server),e.groups (e.members.erase server)⟩
        unhandled := e.members.erase server
        network := e.network.filter fun packet => packet.receiver ≠ server }).isSome := by
      cases left <;> rfl
    by_cases own : server = leader
    · subst own
      by_cases last : e.members.erase server = []
      · exact .empty last
      · obtain ⟨highest,inside,above⟩ := exists_highest (cardinality e) last
        refine .electing ⟨fun other leadsToo => ?_,gone e.view,highest,inside,above⟩
        have before : Leads e other := ⟨List.mem_of_mem_erase leadsToo.1,leadsToo.2⟩
        obtain rfl := later.unique standing leads before
        exact (standing.distinct.mem_erase_iff.mp leadsToo.1).1 rfl
    · have stays : leader ∈ e.members.erase server := (List.mem_erase_of_ne (Ne.symm own)).mpr leads.1
      exact .led ⟨leader,⟨stays,leads.2⟩,fun _ _ => .inr (.announces (gone e.view) stays)⟩

theorem announce_leads {server : Nat} (leads : Leads e server) :
    e.announce server = { e with network := e.network + packets e.members [.newLeader (e.name server)] } := by
  simp [Election.announce,Election.send,leads.1,leads.2]

theorem announce_other {server : Nat} (follows : e.leader server ≠ e.name server) : e.announce server = e := by
  simp [Election.announce,follows]

/-- An announcement reaches everybody. -/
theorem led_announce {server : Nat} (leads : Leads e server) (handler : Nat) : Led ((e.announce server).done handler) := by
  rw [announce_leads leads]
  refine ⟨server,leads,fun member inside => .inr (.told ?_)⟩
  refine Multiset.mem_add.mpr (.inr ?_)
  rw [packets_one]
  exact Multiset.mem_coe.mpr (List.mem_map.mpr ⟨member,inside,rfl⟩)

theorem agreed_first (standing : Standing e) {server : Nat} {joined : SpreadGroup} {name : List Char}
    (due : server ∈ e.unhandled) (view : e.view.change = .join joined) (alone : e.view.members.length = 1)
    (named : getServerName joined = some name) : Agreed ((e.believe server name).done server) := by
  have some := List.ne_nil_of_mem due
  rw [standing.view some] at alone
  obtain ⟨only,members⟩ := List.length_eq_one_iff.mp ((List.length_map _).symm.trans alone)
  have isOnly : ∀ {member}, member ∈ e.members → member = only := by simp [members]
  obtain ⟨other,inside,same⟩ := standing.joined joined some view
  have own := standing.group other inside
  rw [same,named,isOnly inside,← isOnly (standing.due server due)] at own
  have name_eq : name = e.name server := Option.some.inj own
  have told : ((e.believe server name).done server).leader server = e.name server :=
    (believe_self server name).trans name_eq
  refine .led ⟨server,⟨standing.due server due,told⟩,fun member also => .inl ?_⟩
  rw [show member = server from (isOnly also).trans (isOnly (standing.due server due)).symm]
  exact told

theorem Agreed.asks (agreed : Agreed e) (standing : Standing e) {server : Nat} {joined : SpreadGroup}
    (due : server ∈ e.unhandled) (view : e.view.change = .join joined) (more : e.view.members.length ≠ 1) :
    Agreed ((e.send server .whoIsLeader).done server) := by
  have inside := standing.due server due
  cases agreed with
  | empty none => simp [none] at inside
  | founding founding =>
    obtain ⟨only,_,members,_,_⟩ := founding
    rw [standing.view (List.ne_nil_of_mem due)] at more
    simp [Election.groups,members] at more
  | electing electing =>
    obtain ⟨_,left,_⟩ := electing
    simp [not_gone_of_join view] at left
  | led led =>
    obtain ⟨leader,leads,_⟩ := led
    rw [Election.send,if_pos inside]
    refine .led ⟨leader,leads,fun member _ => .inr (.asked ?_)⟩
    refine Multiset.mem_add.mpr (.inr ?_)
    rw [packets_one]
    exact Multiset.mem_coe.mpr (List.mem_map.mpr ⟨leader,leads.1,rfl⟩)

theorem Agreed.ignores (agreed : Agreed e) (standing : Standing e) {server : Nat} (due : server ∈ e.unhandled)
    (other : e.gone? = none ∨ ∃ gone, e.gone? = some gone ∧ (getServerName gone = none ∨
      getServerName gone = some (e.leader server) ∧ maxCardinality e.view.members 0 = none))
    (knows : ∀ joined, e.view.change = .join joined →
      e.view.members.length = 1 ∧ getServerName joined = none ∨ e.view.members.length ≠ 1 ∧ e.leader server ≠ []) :
    Agreed (e.done server) := by
  have some := List.ne_nil_of_mem due
  have inside := standing.due server due
  have nobodyLeft : e.gone? = none := by
    refine other.resolve_right ?_
    rintro ⟨gone,left,unnamed | ⟨_,unread⟩⟩
    · obtain ⟨name,named,_,_⟩ := standing.gone gone some left
      cases unnamed.symm.trans named
    · obtain ⟨max,found,_⟩ := maxCardinality_spec standing.named standing.group 0
      rw [standing.view some] at unread
      cases unread.symm.trans found
  cases agreed with
  | empty none => exact .empty none
  | founding founding =>
    obtain ⟨only,joined,members,_,join⟩ := founding
    obtain ⟨member,also,same⟩ := standing.joined joined some join
    rcases knows joined join with ⟨_,unnamed⟩ | ⟨more,_⟩
    · cases unnamed.symm.trans (same ▸ standing.group member also)
    · rw [standing.view some] at more
      simp [Election.groups,members] at more
  | electing electing =>
    obtain ⟨_,left,_⟩ := electing
    simp [nobodyLeft] at left
  | led led =>
    obtain ⟨leader,leads,believe⟩ := led
    refine .led ⟨leader,leads,fun member also => (believe member also).imp_right fun mends => ?_⟩
    cases mends with
    | told flying => exact .told flying
    | asked flying => exact .asked flying
    | announces left => simp [nobodyLeft] at left
    | elects left => simp [nobodyLeft] at left
    | asks third join more dueToo none untold =>
      refine .asks third join more ((List.mem_erase_of_ne ?_).mpr dueToo) none untold
      rintro rfl
      rcases knows _ join with ⟨alone,_⟩ | ⟨_,has⟩
      · exact more alone
      · exact has none

theorem Agreed.elects (agreed : Agreed e) (standing : Standing e) {server max : Nat} {gone : SpreadGroup}
    (due : server ∈ e.unhandled) (view : e.gone? = some gone) (leader : getServerName gone = some (e.leader server))
    (found : maxCardinality e.view.members 0 = some max) :
    Agreed (((e.believe server (serverName max)).announce server).done server) := by
  have inside := standing.due server due
  obtain ⟨highest,winner,isMember,reached,winnerName⟩ := standing.highest due found
  obtain ⟨name,named,notNil,absent⟩ := standing.gone gone (List.ne_nil_of_mem due) view
  obtain rfl : e.leader server = name := Option.some.inj (leader.symm.trans named)
  by_cases wins : server = winner
  · subst wins
    have leads : Leads (e.believe server (serverName max)) server := ⟨inside,by simp [winnerName]⟩
    exact .led (led_announce leads server)
  have follows : serverName max ≠ e.name server := by
    rw [← winnerName]
    exact fun same => wins (standing.names winner isMember server inside same).symm
  have isHighest : ∀ member, member ∈ e.members → Highest e member → member = winner := by
    intro member also above
    refine standing.eq_of_cardinality also isMember (le_antisymm (reached ▸ highest member also) (above winner isMember))
  rw [announce_other (by simpa using follows)]
  cases agreed with
  | empty none => simp [none] at inside
  | founding founding => simp [founding.not_gone] at view
  | electing electing =>
    obtain ⟨nobody,left,member,dueToo,above⟩ := electing
    have other : member ≠ server := by
      rintro rfl
      exact wins (isHighest member inside above)
    refine .electing ⟨fun third leads => ?_,left,member,(List.mem_erase_of_ne other).mpr dueToo,above⟩
    by_cases own : third = server
    · subst own
      exact follows ((believe_self ..).symm.trans leads.2)
    · exact nobody third (leads_believe_other own leads)
  | led led =>
    obtain ⟨boss,leads,believe⟩ := led
    have notBoss : boss ≠ server := by
      rintro rfl
      exact absent boss leads.1 leads.2.symm
    have stays : Leads (e.believe server (serverName max)) boss :=
      ⟨leads.1,(believe_other _ notBoss).trans leads.2⟩
    refine .led ⟨boss,stays,fun member also => ?_⟩
    by_cases own : member = server
    · subst own
      rcases believe member inside with knows | mends
      · exact absurd knows.symm (absent boss leads.1)
      · cases mends with
        | told flying => exact .inr (.told flying)
        | asked flying => exact .inr (.asked flying)
        | announces left dueToo => exact .inr (.announces left ((List.mem_erase_of_ne notBoss).mpr dueToo))
        | elects _ _ _ above =>
          refine .inl ((believe_self ..).trans ?_)
          rw [← winnerName,isHighest boss leads.1 above]
          rfl
        | asks third join => simp [not_gone_of_join join] at view
    · have same : (e.believe server (serverName max)).leader member = e.leader member := believe_other _ own
      have result := believe member also
      rw [← same] at result
      refine result.imp_right fun mends => ?_
      cases mends with
      | told flying => exact .told flying
      | asked flying => exact .asked flying
      | announces left dueToo => exact .announces left ((List.mem_erase_of_ne notBoss).mpr dueToo)
      | elects left believed dueToo above =>
        exact .elects left believed ((List.mem_erase_of_ne own).mpr dueToo) above
      | asks third join => simp [not_gone_of_join join] at view

theorem Agreed.keeps (agreed : Agreed e) (standing : Standing e) (later : Later e) {server : Nat} {gone : SpreadGroup}
    {name : List Char} (informed : Informed e (.handle server)) (due : server ∈ e.unhandled) (view : e.gone? = some gone)
    (named : getServerName gone = some name) (other : name ≠ e.leader server) :
    Agreed ((e.announce server).done server) := by
  have inside := standing.due server due
  cases agreed with
  | empty none => simp [none] at inside
  | founding founding => simp [founding.not_gone] at view
  | electing electing =>
    obtain ⟨nobody,left,member,dueToo,above⟩ := electing
    have follows : e.leader server ≠ e.name server := fun leads => nobody server ⟨inside,leads⟩
    have notHighest : member ≠ server := by
      rintro rfl
      have knew := informed gone view (fun third also leads => nobody third ⟨also,leads⟩) above
      exact other (Option.some.inj (named.symm.trans knew))
    rw [announce_other follows]
    exact .electing ⟨nobody,left,member,(List.mem_erase_of_ne notHighest).mpr dueToo,above⟩
  | led led =>
    obtain ⟨boss,leads,believe⟩ := led
    by_cases own : server = boss
    · subst own
      exact .led (led_announce leads server)
    · have follows : e.leader server ≠ e.name server := fun leadsToo =>
        own (later.unique standing ⟨inside,leadsToo⟩ leads)
      rw [announce_other follows]
      refine .led ⟨boss,leads,fun member also => (believe member also).imp_right fun mends => ?_⟩
      cases mends with
      | told flying => exact .told flying
      | asked flying => exact .asked flying
      | announces left dueToo => exact .announces left ((List.mem_erase_of_ne (Ne.symm own)).mpr dueToo)
      | elects left believed dueToo above =>
        refine .elects left believed ((List.mem_erase_of_ne ?_).mpr dueToo) above
        rintro rfl
        cases left.symm.trans view
        exact other (Option.some.inj (named.symm.trans believed))
      | asks third join => simp [not_gone_of_join join] at view

theorem Agreed.told (agreed : Agreed e) (standing : Standing e) (later : Later e) {server : Nat} {name : List Char}
    (informed : Informed e (.deliver ⟨server,.newLeader name⟩)) (flying : ⟨server,.newLeader name⟩ ∈ e.network)
    (other : name ≠ e.name server) : Agreed ((e.received ⟨server,.newLeader name⟩).believe server name) := by
  have inside := standing.flying _ flying
  have follows : ∀ {member}, Leads ((e.received ⟨server,.newLeader name⟩).believe server name) member →
      member ≠ server ∧ Leads e member := by
    intro member leads
    have different : member ≠ server := by
      rintro rfl
      exact other ((believe_self ..).symm.trans leads.2)
    exact ⟨different,leads_believe_other different leads⟩
  cases agreed with
  | empty none => exact .empty none
  | founding founding =>
    obtain ⟨only,joined,members,due,join⟩ := founding
    exact .founding ⟨only,joined,members,due,join⟩
  | electing electing =>
    obtain ⟨nobody,left,member,due,above⟩ := electing
    exact .electing ⟨fun third leads => nobody third (follows leads).2,left,member,due,above⟩
  | led led =>
    obtain ⟨boss,leads,believe⟩ := led
    have condition := (informed.resolve_left other) boss leads.1 leads.2
    by_cases own : server = boss
    · subst own
      obtain ⟨left,due,above⟩ : e.gone?.isSome ∧ server ∈ e.unhandled ∧ Highest e server := by
        rcases condition with own | ⟨_,rest⟩ | ⟨different,_⟩
        · exact absurd own other
        · exact rest
        · exact absurd rfl different
      refine .electing ⟨fun third leadsToo => ?_,left,server,due,above⟩
      obtain ⟨different,before⟩ := follows leadsToo
      exact different (later.unique standing before leads)
    · have notBoss : boss ≠ server := Ne.symm own
      refine .led ⟨boss,⟨leads.1,(believe_other _ notBoss).trans leads.2⟩,fun member also => ?_⟩
      -- Whoever still asks has heard of no other server, so it is not this one.
      have asksToo : ∀ {third}, e.leader third = [] →
          (∀ heard, ⟨third,.newLeader heard⟩ ∈ e.network → heard = e.name third) →
          ((e.received ⟨server,.newLeader name⟩).believe server name).leader third = [] ∧
          ∀ heard, ⟨third,.newLeader heard⟩ ∈ (e.received ⟨server,.newLeader name⟩).network → heard = e.name third := by
        intro third none untold
        have different : third ≠ server := by
          rintro rfl
          exact other (untold name flying)
        exact ⟨(believe_other _ different).trans none,fun heard flies => untold heard (Multiset.mem_of_mem_erase flies)⟩
      by_cases same : member = server
      · subst same
        rw [believe_self]
        by_cases right : name = e.name boss
        · exact .inl right
        rcases condition with right' | ⟨mine,_⟩ | ⟨_,mends⟩
        · exact absurd right' right
        · exact absurd mine own
        · refine .inr ?_
          cases mends with
          | told flies => exact .told ((Multiset.mem_erase_of_ne (by simpa using Ne.symm right)).mpr flies)
          | asked flies => exact .asked ((Multiset.mem_erase_of_ne (by simp)).mpr flies)
          | announces left due => exact .announces left due
          | elects left believed due above => exact .elects left believed due above
          | asks third join more due none untold =>
            obtain ⟨none,untold⟩ := asksToo none untold
            exact .asks third join more due none untold
      · rw [believe_other _ same]
        refine (believe member also).imp_right fun mends => ?_
        cases mends with
        | told flies => exact .told ((Multiset.mem_erase_of_ne (by simp [same])).mpr flies)
        | asked flies => exact .asked ((Multiset.mem_erase_of_ne (by simp)).mpr flies)
        | announces left due => exact .announces left due
        | elects left believed due above => exact .elects left believed due above
        | asks third join more due none untold =>
          obtain ⟨none,untold⟩ := asksToo none untold
          exact .asks third join more due none untold

/-- What a server hears of itself it ignores. -/
theorem Agreed.toldOwn (agreed : Agreed e) (standing : Standing e) {server : Nat}
    (flying : ⟨server,.newLeader (e.name server)⟩ ∈ e.network) :
    Agreed (e.received ⟨server,.newLeader (e.name server)⟩) := by
  cases agreed with
  | empty none => exact .empty none
  | founding founding => exact .founding founding
  | electing electing => exact .electing electing
  | led led =>
    obtain ⟨boss,leads,believe⟩ := led
    refine .led ⟨boss,leads,fun member also => ?_⟩
    by_cases own : member = boss
    · exact .inl (own ▸ leads.2)
    refine (believe member also).imp_right fun mends => ?_
    cases mends with
    | told flies =>
      refine .told ((Multiset.mem_erase_of_ne fun same => ?_).mpr flies)
      obtain ⟨rfl,said⟩ : member = server ∧ e.name boss = e.name server := by simpa using same
      exact own (standing.names boss leads.1 member also said).symm
    | asked flies => exact .asked ((Multiset.mem_erase_of_ne (by simp)).mpr flies)
    | announces left due => exact .announces left due
    | elects left believed due above => exact .elects left believed due above
    | asks third join more due none untold =>
      exact .asks third join more due none fun heard flies => untold heard (Multiset.mem_of_mem_erase flies)

theorem Agreed.asked (agreed : Agreed e) (standing : Standing e) {server : Nat}
    (flying : ⟨server,.whoIsLeader⟩ ∈ e.network) : Agreed ((e.received ⟨server,.whoIsLeader⟩).announce server) := by
  have inside := standing.flying _ flying
  by_cases leadsHere : Leads e server
  · have leads : Leads (e.received ⟨server,.whoIsLeader⟩) server := leadsHere
    rw [announce_leads leads]
    refine .led ⟨server,leads,fun member also => .inr (.told (Multiset.mem_add.mpr (.inr ?_)))⟩
    rw [packets_one]
    exact Multiset.mem_coe.mpr (List.mem_map.mpr ⟨member,also,rfl⟩)
  have follows : (e.received ⟨server,.whoIsLeader⟩).leader server ≠ e.name server := fun leads => leadsHere ⟨inside,leads⟩
  rw [announce_other follows]
  cases agreed with
  | empty none => exact .empty none
  | founding founding => exact .founding founding
  | electing electing => exact .electing electing
  | led led =>
    obtain ⟨boss,leads,believe⟩ := led
    have notBoss : boss ≠ server := by
      rintro rfl
      exact leadsHere leads
    refine .led ⟨boss,leads,fun member also => (believe member also).imp_right fun mends => ?_⟩
    cases mends with
    | told flies => exact .told ((Multiset.mem_erase_of_ne (by simp)).mpr flies)
    | asked flies => exact .asked ((Multiset.mem_erase_of_ne (by simp [notBoss])).mpr flies)
    | announces left due => exact .announces left due
    | elects left believed due above => exact .elects left believed due above
    | asks third join more due none untold =>
      exact .asks third join more due none fun heard flies => untold heard (Multiset.mem_of_mem_erase flies)

theorem Agreed.step (agreed : Agreed e) (standing : Standing e) (later : Later e) (informed : Informed e a)
    (step : ElectionStep e a e') : Agreed e' := by
  cases a with
  | join name host => exact agreed.join standing step
  | depart server left => exact agreed.depart standing later step
  | handle server =>
    cases step with
    | elsewhere => exact agreed
    | first due view alone named => exact agreed_first standing due view alone named
    | asks due view more _ => exact agreed.asks standing due view more
    | ignores due other knows => exact agreed.ignores standing due other knows
    | elects due view leader highest => exact agreed.elects standing due view leader highest
    | keeps due view named other => exact agreed.keeps standing later informed due view named other
  | deliver packet =>
    cases step with
    | elsewhere => exact agreed
    | told flying other => exact agreed.told standing later informed flying other
    | toldOwn flying => exact agreed.toldOwn standing flying
    | asked flying => exact agreed.asked standing flying
  | vote | call | thread =>
    cases step
    exact agreed

end

/-- What every member takes for the leader is the one member that takes itself for it. -/
def AgreesOnLeader (s : State) : Prop :=
  ∃ leader ∈ s.members, (∀ member ∈ s.members, (s.managers member).amILeader = true ↔ member = leader) ∧
    ∀ member ∈ s.members, (s.managers member).leaderServerName = (s.managers leader).myServerName

/-- In every run whose steps meet the condition: whenever the group is not empty,
    every change is handled and no message is in flight, the members agree. -/
theorem agreement_at_rest (reach : Nat → Option Nat) (acts : List Action) (s : State)
    (run : Run (Restrict (fun s a => Admits (election s) a ∧ Informed (election s) a) (Steps (step reach))) initial acts s)
    (some : s.members ≠ []) (handled : s.unhandled = []) (quiet : s.network = 0) : AgreesOnLeader s := by
  obtain ⟨standing,later⟩ := standing_run (run.mono fun _ _ _ move => ⟨move.1.1,move.2⟩)
  have agreed : Agreed (election s) := by
    have whole := run.always (P := fun s => (Standing (election s) ∧ Later (election s)) ∧ Agreed (election s)) ?_ ?_
    · exact whole.2
    · have nothing : Run (Restrict (fun s => Admits (election s)) (Steps (step reach))) initial [] initial := .start
      exact ⟨standing_run nothing,.empty rfl⟩
    · rintro s a t ⟨⟨standing,later⟩,agreed⟩ ⟨⟨admitted,informed⟩,move⟩
      have move := election_step move
      exact ⟨⟨standing.step admitted move,later.step standing admitted move⟩,agreed.step standing later informed move⟩
  obtain ⟨leader,leads,believe⟩ := agreed.settled some handled (by simp [election,quiet])
  refine ⟨leader,leads.1,fun member inside => ?_,believe⟩
  have reading : (s.managers member).amILeader = true ↔ (election s).leader member = (election s).name member := by
    simp [LeaderManager.amILeader,election]
  rw [reading]
  constructor
  · intro own
    exact later.unique standing ⟨inside,own⟩ leads
  · rintro rfl
    exact leads.2

instance (s : State) : Decidable (AgreesOnLeader s) := inferInstanceAs (Decidable (∃ _ ∈ _, _))

/-- A stronger condition that can be computed: every announcement that comes is
    the leader's, and whoever handles a leave took the server that left for the leader. -/
def WellInformed (e : Election) : Action → Prop
  | .deliver ⟨_,.newLeader name⟩ => ∀ leader ∈ e.members, e.leader leader = e.name leader → name = e.name leader
  | .handle server => ∀ gone ∈ e.gone?, getServerName gone = some (e.leader server)
  | _ => True

instance (e : Election) : DecidablePred (WellInformed e)
  | .deliver ⟨_,.newLeader _⟩ => inferInstanceAs (Decidable (∀ _ ∈ _, _))
  | .handle _ => inferInstanceAs (Decidable (∀ gone ∈ e.gone?, _))
  | .deliver ⟨_,.whoIsLeader⟩ | .deliver ⟨_,.appendData _ _⟩ | .deliver ⟨_,.consensusVoting _ _ _⟩ => isTrue trivial
  | .join _ _ | .depart _ _ | .vote _ | .call _ _ _ | .thread _ _ => isTrue trivial

theorem WellInformed.informed {e : Election} {a : Action} (well : WellInformed e a) : Informed e a := by
  cases a with
  | deliver packet =>
    obtain ⟨server,message⟩ := packet
    cases message with
    | newLeader name => exact .inr fun leader inside leads => .inl (well leader inside leads)
    | _ => trivial
  | handle server => exact fun gone left _ _ => well gone left
  | _ => trivial

/-- Server9 joins the group of Server1, asks who leads it and is told. -/
def introduced : List Action :=
  [.join (serverName 1) ['h'],.handle 0,.join (serverName 9) ['h'],.handle 1,.handle 0,.deliver ⟨1,.whoIsLeader⟩,
   .deliver ⟨0,.whoIsLeader⟩,.deliver ⟨1,.newLeader (serverName 1)⟩,.deliver ⟨0,.newLeader (serverName 1)⟩]

/-- Server5 joins as well, Server1 leaves, and Server9 is elected. -/
def succeeded : List Action := introduced ++
  [.join (serverName 5) ['h'],.handle 2,.handle 0,.handle 1,.deliver ⟨2,.whoIsLeader⟩,.deliver ⟨1,.whoIsLeader⟩,
   .deliver ⟨0,.whoIsLeader⟩,.deliver ⟨2,.newLeader (serverName 1)⟩,.deliver ⟨1,.newLeader (serverName 1)⟩,
   .deliver ⟨0,.newLeader (serverName 1)⟩,.depart 0 false,.handle 2,.handle 1,.deliver ⟨1,.newLeader (serverName 9)⟩,
   .deliver ⟨2,.newLeader (serverName 9)⟩]

theorem agreement_at_rest_succeeded :
    ∃ s, Run (Restrict (fun s a => Admits (election s) a ∧ Informed (election s) a) (Steps (step fun _ => none))) initial
      succeeded s ∧ s.members = [1,2] ∧ (s.managers 2).leaderServerName = serverName 9 ∧ AgreesOnLeader s := by
  obtain ⟨s,run,members,elected,handled,quiet⟩ := exists_run_of_exec (step fun _ => none)
    (fun s a => Admits (election s) a ∧ WellInformed (election s) a)
    (fun s => s.members = [1,2] ∧ (s.managers 2).leaderServerName = serverName 9 ∧ s.unhandled = [] ∧ s.network = 0)
    initial succeeded (by decide)
  have informed : Run (Restrict (fun s a => Admits (election s) a ∧ Informed (election s) a) (Steps (step fun _ => none)))
      initial succeeded s := run.mono fun _ _ _ move => ⟨⟨move.1.1,move.1.2.informed⟩,move.2⟩
  exact ⟨s,informed,members,elected,agreement_at_rest _ _ s informed (by simp [members]) handled quiet⟩

/-- Server1 leaves before it has told Server9 that it leads. -/
def unintroduced : List Action :=
  [.join (serverName 1) ['h'],.handle 0,.join (serverName 9) ['h'],.handle 1,.handle 0,.depart 0 false,.handle 1,
   .deliver ⟨1,.whoIsLeader⟩]

/-- Nobody is left who knew the leader, and Server9 does not take its place. -/
theorem agreement_fails :
    ¬ ∀ (reach : Nat → Option Nat) (acts : List Action) (s : State),
      Run (Restrict (fun s => Admits (election s)) (Steps (step reach))) initial acts s →
      s.members ≠ [] → s.unhandled = [] → s.network = 0 → AgreesOnLeader s := by
  intro agree
  obtain ⟨s,run,members,handled,quiet,disagree⟩ := exists_run_of_exec (step fun _ => none)
    (fun s => Admits (election s)) (fun s => s.members ≠ [] ∧ s.unhandled = [] ∧ s.network = 0 ∧ ¬ AgreesOnLeader s)
    initial unintroduced (by decide)
  exact disagree (agree _ _ s run members handled quiet)

end CdPraticas.Agreement
