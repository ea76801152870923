import CdPraticas.Groups

/-!
# The list of servers

`Service.serverList` writes the members of the group into one string, each with a
semicolon behind it, and `ConfigurationServiceObserver.onNext` of a client reads the
servers out of it again, by Java's `split`.
-/

namespace CdPraticas.ServerList
open Groups

/-- `text.split(sep)`: the pieces between the separators, without the empty ones at
    the end; where there is no separator, the text itself. -/
def split (sep : Char) (text : List Char) : List (List Char) :=
  if sep ∈ text then (text.splitOn sep).rdropWhile (fun piece => piece.isEmpty) else [text]

/-- A member of the group, by the name and the host of its private group. Spread accepts
    no `#` in either, and there is a host. -/
structure Member where
  name : List Char
  host : List Char
  name_clean : '#' ∉ name
  host_clean : '#' ∉ host
  hosted : host ≠ []
  deriving DecidableEq

/-- The private group of the member, its key in `groupMembers`. -/
def Member.key (member : Member) : List Char := '#' :: member.name ++ '#' :: member.host

/-- `Service.serverList`, over the keys in the order of the map. -/
def serverList (groupMembers : List (List Char)) : List Char :=
  groupMembers.foldl (fun str key => str ++ key ++ [';']) []

structure Server where
  server_name : List Char
  server_address : List Char
  server_port : Nat
  deriving DecidableEq

def service : List Char := "Service".toList

/-- The loop of `onNext`; `none` where an index is out of bounds. -/
def addServers (availableServers : List Server) : List (List Char) → Option (List Server)
  | [] => some availableServers
  | server :: rest =>
    match (split '#' server)[1]? with
    | none => none
    | some name =>
      if name = service then addServers availableServers rest
      else
        match (split '#' server)[2]? with
        | none => none
        | some address => addServers (availableServers ++ [⟨name,address,9001⟩]) rest

section
variable (forAddress : List Char → Nat → Bool) (nextInt : Nat → Nat)

/-- `connectToServer`: the server of the new channel, if there is any. `forAddress` tells
    which addresses the channel builder accepts, and throws for the others. -/
def connectToServer (availableServers : List Server) : Option (Option Server) :=
  if 0 < availableServers.length then
    match availableServers[nextInt availableServers.length]? with
    | none => none
    | some choosedServer =>
      if forAddress choosedServer.server_address choosedServer.server_port then some (some choosedServer) else none
  else some none

/-- `onNext`: the servers available after it and the one connected to; `none` where it
    ends with an exception. -/
def onNext (warning : List Char) : Option (List Server × Option Server) :=
  (addServers [] (split ';' warning)).bind fun availableServers =>
    (connectToServer forAddress nextInt availableServers).map fun channelServer => (availableServers,channelServer)

end

def Member.server (member : Member) : Server := ⟨member.name,member.host,9001⟩

/-- The servers that the client should know of. -/
def servers (members : List Member) : List Server := (members.filter (fun member => member.name ≠ service)).map Member.server

/-- Whichever server is drawn, the client ends up with one entry for each member other
    than the service. -/
def RoundTrips (forAddress : List Char → Nat → Bool) (members : List Member) : Prop :=
  ∀ nextInt : Nat → Nat, (∀ bound, 0 < bound → nextInt bound < bound) →
    ∃ availableServers channelServer, onNext forAddress nextInt (serverList (members.map Member.key)) =
      some (availableServers,channelServer) ∧ availableServers.Perm (servers members)

/-- There is a member, no semicolon in a server, none in the service but at the end of the
    whole list, and every host can be connected to. -/
structure Readable (forAddress : List Char → Nat → Bool) (members : List Member) : Prop where
  some : members ≠ []
  clean : ∀ member ∈ members, member.name ≠ service → ';' ∉ member.name ∧ ';' ∉ member.host
  last : ∀ front member back, members = front ++ member :: back → member.name = service → ';' ∈ member.host →
    back = [] ∧ ∀ c ∈ member.host.dropWhile (fun c => c ≠ ';'), c = ';'
  accepted : ∀ member ∈ members, member.name ≠ service → forAddress member.host 9001 = true

/-! ### Java's split -/

section
variable {sep : Char} {text : List Char}

/-- The pieces have the characters of the text, without the separators. -/
theorem mem_splitOn (sep : Char) (text : List Char) (c : Char) : (∃ piece ∈ text.splitOn sep, c ∈ piece) ↔ c ∈ text ∧ c ≠ sep := by
  induction text with
  | nil => simp
  | cons first rest ih =>
    obtain ⟨head,tail,shape⟩ := List.exists_cons_of_ne_nil (List.splitOn_ne_nil sep rest)
    rw [List.splitOn_cons_eq_if_modifyHead,shape]
    rw [shape] at ih
    by_cases same : first = sep
    · subst same
      simp only [beq_self_eq_true,if_true,List.mem_cons,exists_eq_or_imp,List.not_mem_nil,false_or] at ih ⊢
      rw [ih,or_and_right]
      exact (or_iff_right (fun both => both.2 both.1)).symm
    · simp only [beq_iff_eq,same,if_false,List.modifyHead_cons,List.mem_cons,exists_eq_or_imp] at ih ⊢
      rw [or_assoc,ih,or_and_right]
      refine or_congr_left ⟨?_,And.left⟩
      rintro rfl
      exact ⟨rfl,same⟩

/-- Every piece of the split is one of them. -/
theorem mem_split {piece : List Char} (inside : piece ∈ split sep text) : piece ∈ text.splitOn sep := by
  unfold split at inside
  split_ifs at inside with found
  · exact (List.rdropWhile_prefix ..).subset inside
  · rw [List.mem_singleton.mp inside,List.splitOn_eq_singleton found]
    exact List.mem_singleton_self text

theorem split_of_not_mem (absent : sep ∉ text) : split sep text = [text] := if_neg absent

end

/-! ### What the service writes -/

section
variable {member : Member} {members : List Member}

theorem serverList_eq (groupMembers : List (List Char)) : serverList groupMembers = groupMembers.flatMap (· ++ [';']) := by
  have loop (str : List Char) : groupMembers.foldl (fun str key => str ++ key ++ [';']) str =
      str ++ groupMembers.flatMap (· ++ [';']) := by
    induction groupMembers generalizing str with
    | nil => simp
    | cons key rest ih => rw [List.foldl_cons,ih]; simp
  exact loop []

/-- The pieces of the string are those of its members, and an empty one. -/
theorem splitOn_serverList (groupMembers : List (List Char)) :
    (serverList groupMembers).splitOn ';' = groupMembers.flatMap (·.splitOn ';') ++ [[]] := by
  rw [serverList_eq]
  induction groupMembers with
  | nil => rfl
  | cons key rest ih =>
    rw [List.flatMap_cons,List.append_assoc,List.singleton_append,List.splitOn_append_cons_self,ih]
    simp

theorem split_serverList (some : members ≠ []) : split ';' (serverList (members.map Member.key)) =
    (members.flatMap (fun member : Member => member.key.splitOn ';') ++ [[]]).rdropWhile (fun piece => piece.isEmpty) := by
  have found : ';' ∈ serverList (members.map Member.key) := by
    obtain ⟨member,rest,rfl⟩ := List.exists_cons_of_ne_nil some
    rw [serverList_eq]
    simp
  rw [split,if_pos found,splitOn_serverList,List.flatMap_map]

/-- A key before its first semicolon. -/
def Member.shown (member : Member) : List Char := '#' :: member.name ++ '#' :: member.host.takeWhile (fun c => c ≠ ';')

theorem shown_clean (clean : ';' ∉ member.host) : member.shown = member.key := by
  have whole : member.host.takeWhile (fun c => c ≠ ';') = member.host := by
    refine List.takeWhile_eq_self_iff.mpr fun c inside => decide_eq_true ?_
    rintro rfl
    exact clean inside
  rw [Member.shown,whole,Member.key]

theorem not_mem_shown (clean : ';' ∉ member.name) : ';' ∉ member.shown := by
  intro inside
  simp only [Member.shown,List.cons_append,List.mem_cons,List.mem_append,Char.reduceEq,false_or] at inside
  rcases inside with inside | inside
  · exact clean inside
  · have other := List.mem_takeWhile_imp inside
    simp at other

/-- Where only the host has semicolons, the key is that and what follows the first one. -/
theorem splitOn_key (clean : ';' ∉ member.name) (found : ';' ∈ member.host) :
    ∃ rest, member.host.dropWhile (fun c => c ≠ ';') = ';' :: rest ∧ member.key.splitOn ';' = member.shown :: rest.splitOn ';' := by
  have some : member.host.dropWhile (fun c => c ≠ ';') ≠ [] := by
    intro none
    have all := List.dropWhile_eq_nil_iff.mp none ';' found
    simp at all
  obtain ⟨first,rest,shape⟩ := List.exists_cons_of_ne_nil some
  have semicolon : first = ';' := by
    have head := List.head_dropWhile_not (fun c => decide (c ≠ ';')) some
    simp only [shape,List.head_cons] at head
    simpa using head
  subst semicolon
  have whole : member.key = member.shown ++ ';' :: rest := by
    have host := List.takeWhile_append_dropWhile (p := fun c => decide (c ≠ ';')) (l := member.host)
    rw [shape] at host
    calc member.key
        = '#' :: member.name ++ '#' :: (member.host.takeWhile (fun c => decide (c ≠ ';')) ++ ';' :: rest) := by rw [host,Member.key]
      _ = member.shown ++ ';' :: rest := by simp [Member.shown]
  exact ⟨rest,shape,by rw [whole,List.splitOn_append_cons_self_of_not_mem (not_mem_shown clean)]⟩

/-- A text with two `#`, split at them. -/
theorem splitOn_hashes {name host : List Char} (name_clean : '#' ∉ name) (host_clean : '#' ∉ host) :
    ('#' :: name ++ '#' :: host).splitOn '#' = [[],name,host] := by
  have first : (([] : List Char) ++ '#' :: (name ++ '#' :: host)).splitOn '#' = _ :=
    List.splitOn_append_cons_self_of_not_mem (by simp) _
  rw [List.splitOn_append_cons_self_of_not_mem name_clean,List.splitOn_eq_singleton host_clean] at first
  exact first

/-- What the client reads in a key. -/
theorem split_key (member : Member) : split '#' member.key = [[],member.name,member.host] := by
  have stays : member.host.isEmpty = false := by simpa using member.hosted
  rw [split,if_pos (by simp [Member.key]),Member.key,splitOn_hashes member.name_clean member.host_clean]
  exact rdropWhile_after (p := fun piece => piece.isEmpty) [[],member.name] [] stays

/-- The name is there also where the host is cut. -/
theorem split_shown (named : member.name ≠ []) : (split '#' member.shown)[1]? = some member.name := by
  have host_clean : '#' ∉ member.host.takeWhile (fun c => c ≠ ';') :=
    fun inside => member.host_clean ((List.takeWhile_subset _) inside)
  have stays : member.name.isEmpty = false := by simpa using named
  have kept : ([[],member.name,member.host.takeWhile (fun c => c ≠ ';')] : List (List Char)).rdropWhile (fun piece => piece.isEmpty) = _ :=
    rdropWhile_after [[]] _ stays
  rw [split,if_pos (by simp [Member.shown]),Member.shown,splitOn_hashes member.name_clean host_clean,kept]
  rfl

end

/-! ### What the client reads -/

section
variable {member : Member} {members : List Member} {forAddress : List Char → Nat → Bool} {nextInt : Nat → Nat}

/-- Where the loop ends well, every piece had a name. -/
theorem named_of_addServers {availableServers result : List Server} {activeServers : List (List Char)}
    (read : addServers availableServers activeServers = some result) : ∀ piece ∈ activeServers, (split '#' piece)[1]? ≠ none := by
  induction activeServers generalizing availableServers with
  | nil => simp
  | cons server rest ih =>
    rw [addServers] at read
    have head : (split '#' server)[1]? ≠ none := by
      intro none
      simp [none] at read
    refine List.forall_mem_cons.mpr ⟨head,?_⟩
    split at read
    · cases read
    · split_ifs at read
      · exact ih read
      · split at read
        · cases read
        · exact ih read

/-- What the loop adds was read in one of the pieces. -/
theorem read_of_addServers {availableServers result : List Server} {activeServers : List (List Char)}
    (read : addServers availableServers activeServers = some result) (server : Server) (added : server ∈ result) :
    server ∈ availableServers ∨ ∃ piece ∈ activeServers,
      (split '#' piece)[1]? = some server.server_name ∧ (split '#' piece)[2]? = some server.server_address := by
  induction activeServers generalizing availableServers with
  | nil =>
    cases read
    exact .inl added
  | cons piece rest ih =>
    have later : ∀ found : List Server, addServers found rest = some result → server ∉ found →
        ∃ piece' ∈ piece :: rest, (split '#' piece')[1]? = some server.server_name ∧ (split '#' piece')[2]? = some server.server_address := by
      intro found read absent
      obtain ⟨piece',inside,shape⟩ := (ih read).resolve_left absent
      exact ⟨piece',List.mem_cons_of_mem piece inside,shape⟩
    by_cases old : server ∈ availableServers
    · exact .inl old
    refine .inr ?_
    rw [addServers] at read
    split at read
    · cases read
    · rename_i name named
      split_ifs at read
      · exact later availableServers read old
      · split at read
        · cases read
        · rename_i address placed
          by_cases here : server = ⟨name,address,9001⟩
          · subst here
            exact ⟨piece,List.mem_cons_self,named,placed⟩
          · exact later _ read (by simp [old,here])

/-- The loop over the keys, each as far as its first semicolon. -/
theorem addServers_shown (clean : ∀ member ∈ members, member.name ≠ service → ';' ∉ member.host) (availableServers : List Server) :
    addServers availableServers (members.map Member.shown) = some (availableServers ++ servers members) := by
  induction members generalizing availableServers with
  | nil => simp [addServers,servers]
  | cons member rest ih =>
    have ih := ih (fun other inside => clean other (List.mem_cons_of_mem member inside))
    rw [List.map_cons,addServers]
    by_cases isService : member.name = service
    · have named : member.name ≠ [] := by rw [isService]; decide
      simp only [split_shown named,if_pos isService,ih]
      simp [servers,isService]
    · rw [shown_clean (clean member List.mem_cons_self isService)]
      simp only [split_key,List.getElem?_cons_succ,List.getElem?_cons_zero,if_neg isService,ih]
      simp [servers,isService,Member.server]

/-- Connecting fails only where a host is not accepted. -/
theorem connectToServer_isSome {availableServers : List Server} (drawn : ∀ bound, 0 < bound → nextInt bound < bound)
    (accepted : ∀ server ∈ availableServers, forAddress server.server_address server.server_port = true) :
    (connectToServer forAddress nextInt availableServers).isSome = true := by
  rw [connectToServer]
  split_ifs with any
  · have bound := drawn _ any
    simp only [List.getElem?_eq_getElem bound]
    rw [if_pos (accepted _ (List.getElem_mem bound))]
    rfl
  · rfl

end

/-! ### When the list can be read -/

section
variable {members : List Member} {forAddress : List Char → Nat → Bool}

/-- The pieces of a readable list: the keys, and empty ones behind them. -/
theorem pieces_of_readable (readable : Readable forAddress members) :
    ∃ empties : List (List Char), (∀ piece ∈ empties, piece = []) ∧
      members.flatMap (fun member => member.key.splitOn ';') = members.map Member.shown ++ empties := by
  obtain ⟨-,clean,last,-⟩ := readable
  induction members with
  | nil => exact ⟨[],by simp,rfl⟩
  | cons member rest ih =>
    have name_clean : ';' ∉ member.name := by
      by_cases isService : member.name = service
      · rw [isService]
        decide
      · exact (clean member List.mem_cons_self isService).1
    by_cases found : ';' ∈ member.host
    · have isService : member.name = service := by
        by_contra other
        exact (clean member List.mem_cons_self other).2 found
      obtain ⟨rfl,only⟩ := last [] member rest rfl isService found
      obtain ⟨tail,shape,whole⟩ := splitOn_key name_clean found
      refine ⟨tail.splitOn ';',?_,by simp [whole]⟩
      intro piece inside
      refine List.eq_nil_iff_forall_not_mem.mpr fun c here => ?_
      obtain ⟨char,other⟩ := (mem_splitOn ';' tail c).mp ⟨piece,inside,here⟩
      exact other (only c (shape ▸ List.mem_cons_of_mem _ char))
    · obtain ⟨empties,empty,whole⟩ := ih (fun other inside => clean other (List.mem_cons_of_mem member inside))
        (fun front other back shape => last (member :: front) other back (by rw [shape]; rfl))
      refine ⟨empties,empty,?_⟩
      have alone : member.key.splitOn ';' = [member.shown] := by
        rw [← shown_clean found]
        exact List.splitOn_eq_singleton (not_mem_shown name_clean)
      rw [List.flatMap_cons,alone,whole]
      rfl

/-- The client splits a readable list into the keys. -/
theorem split_of_readable (readable : Readable forAddress members) :
    split ';' (serverList (members.map Member.key)) = members.map Member.shown := by
  obtain ⟨empties,empty,whole⟩ := pieces_of_readable readable
  obtain ⟨front,last,rfl⟩ := (List.eq_nil_or_concat members).resolve_left readable.some
  have dropped : (empties ++ [[]]).rdropWhile (fun piece : List Char => piece.isEmpty) = [] := by
    refine List.rdropWhile_eq_nil_iff.mpr fun piece inside => ?_
    rcases List.mem_append.mp inside with inside | inside
    · simp [empty piece inside]
    · simp [List.mem_singleton.mp inside]
  have stays : last.shown.isEmpty = false := rfl
  have kept : (front.map Member.shown ++ last.shown :: (empties ++ [[]])).rdropWhile (fun piece => piece.isEmpty) = _ :=
    rdropWhile_after (front.map Member.shown) (empties ++ [[]]) stays
  rw [dropped] at kept
  rw [split_serverList readable.some,whole]
  simpa using kept

theorem roundTrips_of_readable (readable : Readable forAddress members) : RoundTrips forAddress members := by
  intro nextInt drawn
  have read : addServers [] (split ';' (serverList (members.map Member.key))) = some (servers members) := by
    rw [split_of_readable readable]
    exact addServers_shown (fun member inside other => (readable.clean member inside other).2) []
  have accepted : ∀ server ∈ servers members, forAddress server.server_address server.server_port = true := by
    intro server inside
    obtain ⟨member,kept,rfl⟩ := List.mem_map.mp inside
    obtain ⟨inside,other⟩ := List.mem_filter.mp kept
    exact readable.accepted member inside (by simpa using other)
  obtain ⟨channelServer,connected⟩ := Option.isSome_iff_exists.mp (connectToServer_isSome drawn accepted)
  refine ⟨servers members,channelServer,?_,.refl _⟩
  simp only [onNext,read,Option.bind_some,connected,Option.map_some]

/-- Where the round trip goes through, the loop has read the servers. -/
theorem RoundTrips.read (trips : RoundTrips forAddress members) : ∃ availableServers,
    addServers [] (split ';' (serverList (members.map Member.key))) = some availableServers ∧
    availableServers.Perm (servers members) ∧
    ∀ nextInt : Nat → Nat, (∀ bound, 0 < bound → nextInt bound < bound) →
      connectToServer forAddress nextInt availableServers ≠ none := by
  have found (nextInt : Nat → Nat) (drawn : ∀ bound, 0 < bound → nextInt bound < bound) : ∃ availableServers,
      addServers [] (split ';' (serverList (members.map Member.key))) = some availableServers ∧
      availableServers.Perm (servers members) ∧ connectToServer forAddress nextInt availableServers ≠ none := by
    obtain ⟨availableServers,channelServer,ends,perm⟩ := trips nextInt drawn
    obtain ⟨found,read,rest⟩ := Option.bind_eq_some_iff.mp ends
    obtain ⟨connected,connects,shape⟩ := Option.map_eq_some_iff.mp rest
    cases shape
    exact ⟨availableServers,read,perm,by simp [connects]⟩
  obtain ⟨availableServers,read,perm,-⟩ := found (fun _ => 0) (fun _ any => any)
  refine ⟨availableServers,read,perm,fun nextInt drawn => ?_⟩
  obtain ⟨same,again,-,connects⟩ := found nextInt drawn
  cases read.symm.trans again
  exact connects

/-- The entry of a member was read in a piece, and no piece has a semicolon. -/
theorem RoundTrips.clean (trips : RoundTrips forAddress members) :
    ∀ member ∈ members, member.name ≠ service → ';' ∉ member.name ∧ ';' ∉ member.host := by
  intro member inside other
  obtain ⟨availableServers,read,perm,-⟩ := trips.read
  have added : member.server ∈ availableServers := by
    refine perm.mem_iff.mpr (List.mem_map_of_mem (List.mem_filter.mpr ⟨inside,?_⟩))
    simpa using other
  obtain ⟨piece,kept,named,placed⟩ := (read_of_addServers read member.server added).resolve_left List.not_mem_nil
  have absent : ∀ part ∈ split '#' piece, ';' ∉ part := by
    intro part here char
    have semicolon : ';' ∈ piece := ((mem_splitOn '#' piece ';').mp ⟨part,mem_split here,char⟩).1
    exact ((mem_splitOn ';' _ ';').mp ⟨piece,mem_split kept,semicolon⟩).2 rfl
  exact ⟨absent member.name (List.mem_of_getElem? named),absent member.host (List.mem_of_getElem? placed)⟩

/-- What follows the first semicolon of a host has no `#`, so that the loop fails on it
    unless all of it is dropped. -/
theorem RoundTrips.dropped (trips : RoundTrips forAddress members) {front back : List Member} {member : Member}
    {rest : List Char} (shape : members = front ++ member :: back)
    (tail : member.host.dropWhile (fun c => c ≠ ';') = ';' :: rest) (whole : member.key.splitOn ';' = member.shown :: rest.splitOn ';') :
    ∀ piece ∈ rest.splitOn ';' ++ back.flatMap (fun other => other.key.splitOn ';'), piece = [] := by
  obtain ⟨availableServers,read,-⟩ := trips.read
  obtain ⟨head,others,pieces⟩ := List.exists_cons_of_ne_nil (List.splitOn_ne_nil ';' rest)
  -- the pieces behind the one that is shown
  let later := head :: (others ++ back.flatMap (fun other : Member => other.key.splitOn ';') ++ [[]])
  have stays : member.shown.isEmpty = false := rfl
  have kept : split ';' (serverList (members.map Member.key)) = front.flatMap (fun other => other.key.splitOn ';') ++
      member.shown :: later.rdropWhile (fun piece => piece.isEmpty) := by
    rw [split_serverList (by simp [shape]),shape,← rdropWhile_after _ later stays]
    simp [later,whole,pieces]
  have all : later.rdropWhile (fun piece => piece.isEmpty) = [] := by
    by_contra some
    obtain ⟨first,_,cons⟩ := List.exists_cons_of_ne_nil some
    obtain ⟨_,joined⟩ := List.rdropWhile_prefix (fun piece : List Char => piece.isEmpty) later
    rw [cons] at joined
    obtain ⟨rfl,-⟩ := List.cons.inj joined
    have inside : first ∈ split ';' (serverList (members.map Member.key)) := by
      rw [kept,cons]
      simp
    refine named_of_addServers read first inside ?_
    have hash : '#' ∉ first := by
      intro char
      have char := ((mem_splitOn ';' rest '#').mp ⟨first,by simp [pieces],char⟩).1
      refine member.host_clean (List.dropWhile_subset (fun c => decide (c ≠ ';')) ?_)
      rw [tail]
      exact List.mem_cons_of_mem _ char
    rw [split_of_not_mem hash]
    rfl
  intro piece inside
  have here : piece ∈ later := by
    rw [pieces,List.cons_append] at inside
    simp only [later,← List.cons_append]
    exact List.mem_append_left _ inside
  exact List.isEmpty_iff.mp (List.rdropWhile_eq_nil_iff.mp all piece here)

theorem RoundTrips.last (trips : RoundTrips forAddress members) : ∀ front member back, members = front ++ member :: back →
    member.name = service → ';' ∈ member.host → back = [] ∧ ∀ c ∈ member.host.dropWhile (fun c => c ≠ ';'), c = ';' := by
  intro front member back shape isService found
  have named : ';' ∉ member.name := by rw [isService]; decide
  obtain ⟨rest,tail,whole⟩ := splitOn_key named found
  have empty := trips.dropped shape tail whole
  constructor
  · -- a member behind it would have a piece with its `#`
    cases back with
    | nil => rfl
    | cons other back =>
      obtain ⟨piece,inside,hash⟩ := (mem_splitOn ';' other.key '#').mpr ⟨by simp [Member.key],by decide⟩
      have none := empty piece (by simp [inside])
      subst none
      cases hash
  · rw [tail]
    intro c inside
    rcases List.mem_cons.mp inside with same | inside
    · exact same
    · by_contra other
      obtain ⟨piece,kept,here⟩ := (mem_splitOn ';' rest c).mpr ⟨inside,other⟩
      have none := empty piece (List.mem_append_left _ kept)
      subst none
      cases here

/-- Each entry may be the one drawn. -/
theorem RoundTrips.accepted (trips : RoundTrips forAddress members) :
    ∀ member ∈ members, member.name ≠ service → forAddress member.host 9001 = true := by
  intro member inside other
  obtain ⟨availableServers,-,perm,connects⟩ := trips.read
  have added : member.server ∈ availableServers := by
    refine perm.mem_iff.mpr (List.mem_map_of_mem (List.mem_filter.mpr ⟨inside,?_⟩))
    simpa using other
  obtain ⟨i,bound,entry⟩ := List.getElem_of_mem added
  have drawn := connects (fun n => if i < n then i else 0) (fun n any => by split_ifs <;> assumption)
  by_contra refused
  apply drawn
  rw [connectToServer,if_pos (Nat.zero_lt_of_lt bound)]
  simp [bound,entry,Member.server,refused]

/-- What the service writes comes back entry by entry exactly for a readable list. -/
theorem roundTrips_iff (forAddress : List Char → Nat → Bool) (members : List Member) :
    RoundTrips forAddress members ↔ Readable forAddress members := by
  refine ⟨fun trips => ?_,roundTrips_of_readable⟩
  refine { some := ?_, clean := trips.clean, last := trips.last, accepted := trips.accepted }
  rintro rfl
  -- the empty string is split into one empty piece, which has no name
  obtain ⟨availableServers,read,-⟩ := trips.read
  cases read

/-- With no member in the group the client ends with an exception. -/
theorem not_roundTrips_nil : ¬∀ members : List Member, RoundTrips (fun _ _ => true) members := by
  intro all
  obtain ⟨availableServers,channelServer,ends,-⟩ := all [] (fun _ => 0) (fun _ any => any)
  cases ends

end

end CdPraticas.ServerList
