import GasSub.Guarantees.MasterSession

/-!
# Master and slaves are a network

A master, any number of slaves with addresses of their own and an error-free line between
them: an exchange is a request of the application at the master, the frame, what the slaves
do with it, and what the master does with what they send. Whatever requests are made one
after another, the nodes stay those of the abstract network, and the application gets the
ending that the network has for each.
-/
namespace GasSub.Guarantees.ModbusNetwork
open GasSub.Source
open GasSub.Library.ModbusMirror GasSub.Library.ModbusProtocol
open GasSub.Guarantees.LineFraming GasSub.Guarantees.MasterLine GasSub.Guarantees.MasterRequests
open GasSub.Guarantees.MasterSession GasSub.Guarantees.SlaveRequests GasSub.Guarantees.SlaveSession

/-! ### The line -/

structure Bus where
  master : Master
  slaves : List Slave

/-- What a slave has put on the line. -/
def said (before after : Slave) : List INT8U := after.rtu.line.drop before.rtu.line.length

/-- A slave that has nothing to say hears what the others say. -/
def overhears (run : List INT8U) (before after : Slave) : Slave :=
  if said before after = [] ∧ run ≠ [] then hears after run else after

/-- A request, from the call of the application to its return. -/
def exchange (eEvent : INT32U) (bus : Bus) (a : INT8U) (r : Request) : Option (EMBMasterReqErrCode × Bus) :=
  match issue bus.master.node a r with
  | none => none
  | some (.error e) => some (e, bus)
  | some (.ok node) =>
    (serve eEvent 2 { bus.master with node := node }).bind fun m =>
    (MasterLine.transmitAll (m.node.rtu.usMasterSndBufferCount.toNat + 1) m.node.rtu).bind fun sent =>
      let run := sent.line.drop m.node.rtu.line.length
      let replies := bus.slaves.flatMap fun s => said s (hears s run)
      (finishes eEvent (withSent m sent) replies).map fun finished =>
        (finished.1, ⟨finished.2, bus.slaves.map fun s => overhears replies s (hears s run)⟩)

/-! ### The slaves -/

/-- A slave after an exchange. -/
structure SlaveAfter (s : Slave) (d : Device) (after : Slave) : Prop where
  waiting : Waiting after
  ucMBAddress : after.ucMBAddress = s.ucMBAddress
  device : deviceOf after.node.regs = d

theorem said_eq {s after : Slave} {sent : List INT8U} (line : after.rtu.line = s.rtu.line ++ sent) :
    said s after = sent := by
  rw [said, line, List.drop_left]

theorem overhears_nothing (before after : Slave) : overhears [] before after = after :=
  if_neg fun heard => heard.2 rfl

/-- Frames with the address of another station are nothing to a slave. -/
theorem frame_ignored {s : Slave} (waiting : Waiting s) {a : INT8U} (one : a ≠ mbAddressBroadcast)
    (other : a ≠ s.ucMBAddress) (pdu : List INT8U) : Unmoved s (hears s (lineFrame a pdu)) := by
  refine (hears_ignored waiting fun address content decoded => ?_).1
  obtain ⟨same, -, -⟩ := (decodeFrame_eq_some_iff _ _ _).mp decoded
  obtain rfl := (List.cons.inj same).1
  exact ⟨other, one⟩

section
variable {s : Slave} (waiting : Waiting s) {a : INT8U} {r : Request} (taken : Taken r)
include waiting

theorem others_keep (one : a ≠ mbAddressBroadcast) (other : a ≠ s.ucMBAddress) (reply : List INT8U)
    (spoken : Prop) [Decidable spoken] :
    said s (hears s (lineFrame a r.pdu)) = [] ∧
      SlaveAfter s (deviceOf s.node.regs)
        (overhears (if spoken then lineFrame a reply else []) s (hears s (lineFrame a r.pdu))) := by
  have first := frame_ignored waiting one other r.pdu
  have silent : said s (hears s (lineFrame a r.pdu)) = [] :=
    said_eq (first.line.trans (List.append_nil _).symm)
  refine ⟨silent, ?_⟩
  by_cases heard : spoken
  · rw [if_pos heard, overhears, if_pos ⟨silent, List.cons_ne_nil _ _⟩]
    have second := frame_ignored first.waiting one (by rw [first.ucMBAddress]; exact other) reply
    exact ⟨second.waiting, second.ucMBAddress.trans first.ucMBAddress, by rw [second.node, first.node]⟩
  · rw [if_neg heard, overhears_nothing]
    exact ⟨first.waiting, first.ucMBAddress, by rw [first.node]⟩

include taken

theorem own_serves (one : a ≠ mbAddressBroadcast) (own : a = s.ucMBAddress) (run : List INT8U) :
    said s (hears s (lineFrame a r.pdu)) =
        lineFrame a ((r.serve slaveSizes slaveLimits (deviceOf s.node.regs)).2.pdu r) ∧
      SlaveAfter s (r.serve slaveSizes slaveLimits (deviceOf s.node.regs)).1
        (overhears run s (hears s (lineFrame a r.pdu))) := by
  have outcome := hears_request waiting taken (Or.inl own)
  have spoken := said_eq outcome.line
  rw [repliesTo, if_neg one, ← own] at spoken
  refine ⟨spoken, ?_⟩
  have speaks : said s (hears s (lineFrame a r.pdu)) ≠ [] := by
    rw [spoken]
    exact List.cons_ne_nil _ _
  rw [overhears, if_neg fun heard => speaks heard.1]
  exact ⟨outcome.waiting, outcome.ucMBAddress, outcome.device⟩

theorem all_serve (all : a = mbAddressBroadcast) :
    said s (hears s (lineFrame a r.pdu)) = [] ∧
      SlaveAfter s (r.serve slaveSizes slaveLimits (deviceOf s.node.regs)).1
        (overhears [] s (hears s (lineFrame a r.pdu))) := by
  have outcome := hears_request waiting taken (Or.inr all)
  have spoken := said_eq outcome.line
  rw [repliesTo, if_pos all] at spoken
  rw [overhears_nothing]
  exact ⟨spoken, outcome.waiting, outcome.ucMBAddress, outcome.device⟩

end

/-! ### The abstract network -/

/-- The network of the slaves with these addresses, as this master sees it. -/
def layoutOf (addresses : List INT8U) : Layout where
  z := slaveSizes
  l := slaveLimits
  stations := mbMasterTotalSlaveNum
  present a := decide (a ∈ addresses)

/-- The rows of the master are its copies. -/
def Rows (regs : MasterRegs) (copies : INT8U → Device) : Prop :=
  ∀ b : INT8U, 1 ≤ b.toNat → b.toNat ≤ mbMasterTotalSlaveNum →
    Agree (within slaveSizes) (copyOf regs b) (copies b)

/-- The bus is the network, and rests. -/
structure Refines (addresses : List INT8U) (bus : Bus) (n : Network) : Prop where
  master : Resting bus.master
  waiting : ∀ s ∈ bus.slaves, Waiting s
  addresses : bus.slaves.map (·.ucMBAddress) = addresses
  devices : ∀ s ∈ bus.slaves, deviceOf s.node.regs = n.devices s.ucMBAddress
  rows : Rows bus.master.node.regs n.copies

def resultOf : Ending → EMBMasterReqErrCode
  | .done => .noErr
  | .refused => .exeFun
  | .silent => .timedout

/-- What is heard on the line after a request. -/
def replyOf (addresses : List INT8U) (n : Network) (a : INT8U) (r : Request) : List INT8U :=
  if a ≠ mbAddressBroadcast ∧ a ∈ addresses then
    lineFrame a ((r.serve slaveSizes slaveLimits (n.devices a)).2.pdu r)
  else []

theorem flatMap_single {α κ β : Type} [DecidableEq κ] (key : α → κ) (a : κ) (x : List β) {l : List α}
    (apart : (l.map key).Nodup) :
    (l.flatMap fun s => if key s = a then x else []) = if a ∈ l.map key then x else [] := by
  induction l with
  | nil => rfl
  | cons s l ih =>
    rw [List.map_cons, List.nodup_cons] at apart
    rw [List.flatMap_cons, ih apart.2, List.map_cons]
    by_cases here : key s = a
    · subst here
      rw [if_pos rfl, if_neg apart.1, if_pos List.mem_cons_self, List.append_nil]
    · rw [if_neg here, List.nil_append]
      exact if_congr (by rw [List.mem_cons, or_iff_right (Ne.symm here)]) rfl rfl

section
variable {addresses : List INT8U} {bus : Bus} {n : Network} (refines : Refines addresses bus n)
  (apart : addresses.Nodup) {a : INT8U} {r : Request} (taken : Taken r)
include refines taken

/-- One slave in an exchange. -/
theorem slave_exchange {s : Slave} (member : s ∈ bus.slaves) :
    said s (hears s (lineFrame a r.pdu)) =
        (if s.ucMBAddress = a then replyOf addresses n a r else []) ∧
      SlaveAfter s ((n.exchange (layoutOf addresses) a r).2.devices s.ucMBAddress)
        (overhears (replyOf addresses n a r) s (hears s (lineFrame a r.pdu))) := by
  have waiting := refines.waiting s member
  have device := refines.devices s member
  have present : s.ucMBAddress ∈ addresses := by
    rw [← refines.addresses]
    exact List.mem_map_of_mem member
  by_cases all : a = mbAddressBroadcast
  · have nothing : replyOf addresses n a r = [] := if_neg fun one => one.1 all
    obtain ⟨silent, after⟩ := all_serve waiting taken all
    rw [device] at after
    rw [nothing, ite_self, n.exchange_all r all]
    exact ⟨silent, after⟩
  · by_cases own : a = s.ucMBAddress
    · subst own
      have reply : replyOf addresses n s.ucMBAddress r = _ := if_pos ⟨all, present⟩
      obtain ⟨spoken, after⟩ := own_serves waiting taken all rfl (replyOf addresses n s.ucMBAddress r)
      rw [device] at after spoken
      have served : (n.ask (layoutOf addresses) s.ucMBAddress r).devices s.ucMBAddress =
          (r.serve slaveSizes slaveLimits (n.devices s.ucMBAddress)).1 := Function.update_self _ _ _
      rw [if_pos rfl, n.exchange_present r all (decide_eq_true present), served]
      exact ⟨spoken.trans reply.symm, after⟩
    · obtain ⟨silent, after⟩ := others_keep (r := r) waiting all own
        ((r.serve slaveSizes slaveLimits (n.devices a)).2.pdu r) (a ≠ mbAddressBroadcast ∧ a ∈ addresses)
      have same : (n.exchange (layoutOf addresses) a r).2.devices s.ucMBAddress = n.devices s.ucMBAddress := by
        by_cases there : (layoutOf addresses).present a
        · rw [n.exchange_present r all there]
          exact Function.update_of_ne (Ne.symm own) _ _
        · rw [n.exchange_absent r all there]
      rw [if_neg (Ne.symm own), same, ← device]
      exact ⟨silent, after⟩

include apart

theorem replies_exchange :
    (bus.slaves.flatMap fun s => said s (hears s (lineFrame a r.pdu))) = replyOf addresses n a r := by
  have each := List.flatMap_congr fun s member => (slave_exchange (a := a) refines taken member).1
  have once := refines.addresses ▸ apart
  rw [each, flatMap_single (fun s : Slave => s.ucMBAddress) a _ once, refines.addresses]
  by_cases there : a ∈ addresses
  · exact if_pos there
  · rw [if_neg there, replyOf, if_neg fun heard => there heard.2]

end

/-! ### The master -/

theorem rows_update {before after : MasterRegs} {copies : INT8U → Device} {a : INT8U} {d e : Device}
    (row : RowIs before a d after) (rows : Rows before copies)
    (own : Agree (within slaveSizes) d e) : Rows after (Function.update copies a e) := by
  intro b positive near
  by_cases same : b = a
  · subst same
    rw [Function.update_self, row.row]
    exact own
  · rw [Function.update_of_ne same]
    exact (row.others b same).trans (rows b positive near)

/-- However the exchange ends, the master is as the network has it. -/
theorem master_exchange (addresses : List INT8U) {n : Network} {before m : Master} {a : INT8U} {r : Request}
    (awaiting : Awaiting before a r m) (eEvent : INT32U) (near : a.toNat ≤ mbMasterTotalSlaveNum)
    (sized : r.pdu.length ≤ 250) (rows : Rows before.node.regs n.copies) :
    ∃ after, finishes eEvent m (replyOf addresses n a r) =
        some (resultOf (n.exchange (layoutOf addresses) a r).1, after) ∧
      Resting after ∧ Rows after.node.regs (n.exchange (layoutOf addresses) a r).2.copies := by
  by_cases all : a = mbAddressBroadcast
  · have nothing : replyOf addresses n a r = [] := if_neg fun one => one.1 all
    obtain ⟨rested, regs, event, served, ended, which, told⟩ := told_ends awaiting eEvent all sized
    have last : event ∈ finishedEvents := by
      rw [which]
      split <;> decide
    obtain ⟨after, finished, resting, same⟩ := finishes_ended served ended last
    rw [nothing, n.exchange_all r all]
    refine ⟨after, ?_, resting, fun b positive close => ?_⟩
    · rw [finished, which]
      by_cases done : endingForAll slaveSizes r = .done
      · rw [if_pos done, show endingForAll (layoutOf addresses).z r = .done from done]
        rfl
      · rw [if_neg done, show endingForAll (layoutOf addresses).z r = .refused from
          (endingForAll_cases _ r).resolve_left done]
        rfl
    · have copied : (layoutOf addresses).Copied b := ⟨positive, close⟩
      rw [same]
      simp only [Network.tell, if_pos copied]
      exact (told b positive close).trans ((rows b positive close).learnForAll r)
  · by_cases there : a ∈ addresses
    · have reply : replyOf addresses n a r = lineFrame a _ := if_pos ⟨all, there⟩
      have positive : 1 ≤ a.toNat := Nat.one_le_iff_ne_zero.mpr fun zero => all (BitVec.eq_of_toNat_eq zero)
      have copies : (n.ask (layoutOf addresses) a r).copies = Function.update n.copies a
          (learn (n.copies a) r (r.serve slaveSizes slaveLimits (n.devices a)).2) := rfl
      rw [reply, n.exchange_present r all (decide_eq_true there), copies]
      change ∃ after, _ = some (resultOf (endingOf (r.serve slaveSizes slaveLimits (n.devices a)).2), after) ∧ _
      by_cases refused : ∃ x, (r.serve slaveSizes slaveLimits (n.devices a)).2 = .refused x
      · obtain ⟨x, same⟩ := refused
        obtain ⟨rested, served, ended⟩ := refused_ends awaiting eEvent all (serve_refused _ _ _ r same)
        obtain ⟨after, finished, resting, regs⟩ := finishes_ended served ended (by decide)
        rw [same, learn_refused, Function.update_eq_self]
        exact ⟨after, finished, resting, by rw [regs]; exact rows⟩
      · have granted : ∀ x, (r.serve slaveSizes slaveLimits (n.devices a)).2 ≠ .refused x :=
          fun x same => refused ⟨x, same⟩
        obtain ⟨rested, regs, served, ended, row⟩ := granted_ends awaiting eEvent all sized granted
        obtain ⟨after, finished, resting, same⟩ := finishes_ended served ended (by decide)
        rw [endingOf_granted granted]
        refine ⟨after, finished, resting, ?_⟩
        rw [same]
        exact rows_update row rows ((rows a positive near).learn r _)
    · have nothing : replyOf addresses n a r = [] := if_neg fun heard => there heard.2
      obtain ⟨rested, served, ended⟩ := silent_ends awaiting eEvent all
      obtain ⟨after, finished, resting, regs⟩ := finishes_ended served ended (by decide)
      rw [nothing, n.exchange_absent r all (by simpa [layoutOf] using there)]
      exact ⟨after, finished, resting, by rw [regs]; exact rows⟩

/-! ### Sessions -/

/-- A request that is sent and served as it is, to a station in reach: the master has a row for
each of sixteen. A request to another one, one that `Sendable` leaves out, and a read that the
slave serves with one byte of its count, end otherwise than in the network. -/
structure Accepted (a : INT8U) (r : Request) : Prop where
  near : a.toNat ≤ mbMasterTotalSlaveNum
  sendable : Sendable r
  taken : Taken r

/-- One exchange of the bus is one of the network. -/
theorem exchange_refines {addresses : List INT8U} {bus : Bus} {n : Network} (refines : Refines addresses bus n)
    (apart : addresses.Nodup) {a : INT8U} {r : Request} (accepted : Accepted a r) (eEvent : INT32U) :
    ∃ after, exchange eEvent bus a r =
        some (resultOf (n.exchange (layoutOf addresses) a r).1, after) ∧
      Refines addresses after (n.exchange (layoutOf addresses) a r).2 := by
  have free : 0 < bus.master.node.xMasterRunRes := by
    rw [refines.master.free]
    decide
  obtain ⟨loaded, sent, served, transmitted, line, awaiting⟩ :=
    request_goes_out refines.master accepted.near accepted.sendable.sized eEvent
  obtain ⟨after, finished, resting, rows⟩ := master_exchange addresses awaiting eEvent
    accepted.near accepted.sendable.sized refines.rows
  have each := fun s member => (slave_exchange (a := a) refines accepted.taken (s := s) member).2
  refine ⟨⟨after, bus.slaves.map fun s =>
    overhears (replyOf addresses n a r) s (hears s (lineFrame a r.pdu))⟩, ?_, resting, ?_, ?_, ?_, rows⟩
  · rw [exchange, issue_eq free accepted.near accepted.sendable]
    dsimp only
    rw [served, Option.bind_some, transmitted, Option.bind_some, line, List.drop_left,
      replies_exchange refines apart accepted.taken, finished]
    rfl
  · intro s member
    obtain ⟨before, there, rfl⟩ := List.mem_map.mp member
    exact (each before there).waiting
  · rw [List.map_map]
    exact (List.map_congr_left fun s member => (each s member).ucMBAddress).trans refines.addresses
  · intro s member
    obtain ⟨before, there, rfl⟩ := List.mem_map.mp member
    rw [(each before there).ucMBAddress]
    exact (each before there).device

/-- One request after another, and what the application is told. -/
def session (eEvent : INT32U) : Bus → List (INT8U × Request) → Option (List EMBMasterReqErrCode × Bus)
  | bus, [] => some ([], bus)
  | bus, (a, r) :: rest =>
    (exchange eEvent bus a r).bind fun first =>
      (session eEvent first.2 rest).map fun later => (first.1 :: later.1, later.2)

theorem session_run {addresses : List INT8U} {bus : Bus} {n : Network} (refines : Refines addresses bus n)
    (apart : addresses.Nodup) {requests : List (INT8U × Request)}
    (accepted : ∀ q ∈ requests, Accepted q.1 q.2) (eEvent : INT32U) :
    ∃ after, session eEvent bus requests =
        some ((n.session (layoutOf addresses) requests).1.map resultOf, after) ∧
      Refines addresses after (n.session (layoutOf addresses) requests).2 := by
  induction requests generalizing bus n with
  | nil => exact ⟨bus, rfl, refines⟩
  | cons q rest ih =>
    obtain ⟨between, first, still⟩ := exchange_refines refines apart (accepted q List.mem_cons_self) eEvent
    obtain ⟨after, later, refined⟩ := ih still fun q member => accepted q (List.mem_cons_of_mem _ member)
    refine ⟨after, ?_, refined⟩
    rw [session, first, Option.bind_some, later]
    rfl

/-! ### From the start -/

/-- The slaves at their stations, each started with its address. -/
structure Stations (stations : List (Slave × INT8U)) : Prop where
  table : ∀ st ∈ stations, st.1.table = xFuncHandlers
  transmitter : ∀ st ∈ stations, st.1.rtu.eSndState = .txIdle
  own : ∀ st ∈ stations, st.2 ≠ mbAddressBroadcast ∧ st.2 ≤ mbAddressMax
  apart : (stations.map Prod.snd).Nodup

/-- The whole line from the start of its nodes. -/
def networkSession (eEvent : INT32U) (m : Master) (stations : List (Slave × INT8U))
    (requests : List (INT8U × Request)) : Option (List EMBMasterReqErrCode × Bus) :=
  (masterStarted eEvent m).bind fun m =>
    session eEvent ⟨m, stations.map fun st => started st.1 st.2⟩ requests

section
variable (eEvent : INT32U) (usTimeOut50us : INT16U) (regs : MasterRegs) (slave : SlaveNode)
  (stations : List (Slave × INT8U)) (fresh : Stations stations) (n : Network)
  (devices : ∀ st ∈ stations, n.devices st.2 = deviceOf st.1.node.regs) (copies : n.copies = copyOf regs)
  (requests : List (INT8U × Request)) (accepted : ∀ q ∈ requests, Accepted q.1 q.2)
include fresh devices copies accepted

theorem networkSession_run :
    ∃ after, networkSession eEvent (masterInit usTimeOut50us regs slave) stations requests =
        some ((n.session (layoutOf (stations.map Prod.snd)) requests).1.map resultOf, after) ∧
      Refines (stations.map Prod.snd) after (n.session (layoutOf (stations.map Prod.snd)) requests).2 := by
  obtain ⟨m, master, resting, same⟩ := masterStarted_resting eEvent usTimeOut50us regs slave
  have each : ∀ st ∈ stations, Waiting (started st.1 st.2) ∧ (started st.1 st.2).ucMBAddress = st.2 ∧
      (started st.1 st.2).node = st.1.node := by
    intro st member
    obtain ⟨waiting, own, node, -, -⟩ := started_waiting (fresh.table st member) (fresh.transmitter st member)
      (fresh.own st member).1 (fresh.own st member).2
    exact ⟨waiting, own, node⟩
  have refines : Refines (stations.map Prod.snd) ⟨m, stations.map fun st => started st.1 st.2⟩ n := by
    refine ⟨resting, ?_, ?_, ?_, ?_⟩
    · intro s member
      obtain ⟨st, there, rfl⟩ := List.mem_map.mp member
      exact (each st there).1
    · rw [List.map_map]
      exact List.map_congr_left fun st member => (each st member).2.1
    · intro s member
      obtain ⟨st, there, rfl⟩ := List.mem_map.mp member
      rw [(each st there).2.1, (each st there).2.2]
      exact (devices st there).symm
    · rw [same, copies]
      exact fun b _ _ => .refl _ _
  rw [networkSession, master, Option.bind_some]
  exact session_run refines fresh.apart accepted eEvent

end

/-! ### Two slaves -/

def clearNetwork : Network := ⟨fun _ => deviceOf SlaveSession.powerOn.node.regs, copyOf clearRows⟩

/-- A register written at both, read back at one, a coil beyond those there are, and a
station that is not there. -/
def fourRequests : List (INT8U × Request) :=
  [(0, .writeHolding 3 0xBEEF), (1, .readHoldings 3 1), (2, .writeCoils 63 [true, true]), (5, .readCoils 0 1)]

theorem twoStations : Stations [(SlaveSession.powerOn, 1), (SlaveSession.powerOn, 2)] where
  table := by simp [SlaveSession.powerOn]
  transmitter := by simp [SlaveSession.powerOn, RtuSlave.reset]
  own := by simp [mbAddressBroadcast, mbAddressMax]
  apart := by decide

theorem fourRequests_accepted : ∀ q ∈ fourRequests, Accepted q.1 q.2 := by
  intro q member
  simp only [fourRequests, List.mem_cons, List.not_mem_nil, or_false] at member
  rcases member with rfl | rfl | rfl | rfl
  · exact ⟨by decide, ⟨by decide, fun _ _ same => by cases same⟩, ⟨by decide, fun _ _ same => by cases same⟩⟩
  · refine ⟨by decide, ⟨by decide, fun _ _ same => by cases same⟩, ⟨by decide, fun _ _ same => ?_⟩⟩
    cases same
    decide
  · exact ⟨by decide, ⟨by decide, fun _ _ same => by cases same⟩, ⟨by decide, fun _ _ same => by cases same⟩⟩
  · exact ⟨by decide, ⟨by decide, fun _ _ same => by cases same⟩, ⟨by decide, fun _ _ same => by cases same⟩⟩

theorem clearNetwork_devices : ∀ st ∈ [(SlaveSession.powerOn, (1 : INT8U)), (SlaveSession.powerOn, 2)],
    clearNetwork.devices st.2 = deviceOf st.1.node.regs := by
  simp [clearNetwork]

end GasSub.Guarantees.ModbusNetwork
