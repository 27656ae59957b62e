import Mathlib.Data.List.Chain
import EthernetMac.Proofs.Link.Poll
import EthernetMac.Proofs.Trace

namespace EthernetMac

variable {g : Geometry} {σ : Type}

/-- What somebody else does to the surroundings is not traced. -/
def Traced.aside {α : Type} (act : StateM σ α) : StateM (Traced σ) α := fun env =>
  ((act env.rest).1, ⟨env.deeds, (act env.rest).2⟩)

namespace Board

/-- The board with a trace of what the driver has done. -/
def traced (deeds : List Deed) (board : Board g σ) : Board g (Traced σ) :=
  ⟨board.mac, ⟨deeds, board.world⟩, board.journal⟩

def untraced (board : Board g (Traced σ)) : Board g σ :=
  ⟨board.mac, board.world.rest, board.journal⟩

end Board

/-- The application, with a trace of the events that it is told of; what it does itself is not traced. -/
def Application.traced (app : Application g σ) : Application g (Traced σ) where
  onEvent event board := (app.onEvent event board.untraced).map fun answer =>
    (answer.1, answer.2.traced (board.world.deeds ++ [.tell event]))
  onStamp callback stamp board := (app.onStamp callback stamp board.untraced).map fun answer =>
    (answer.1, answer.2.traced board.world.deeds)

namespace LinkStatus

def lastUp? (links : List LinkStatus) : Option LinkStatus := (links.filter LinkStatus.up).getLast?

/-- How the MAC is brought to the mode of a link, if it is up. -/
def modeDeeds (link : LinkStatus) (found : UInt32) : List Deed :=
  let register := Register.macConfiguration.offset
  let word := found &&& ~~~(Fields.fastEthernet ||| Fields.fullDuplex) ||| Peripheral.modeBits link.speed link.duplex
  if link.up then [.read register found, .write register word] else []

/-- How the application is told of a link: once the MAC is in its mode. -/
def deeds (link : LinkStatus) (found : UInt32) : List Deed := link.modeDeeds found ++ [.tell (.linkChanged link)]

theorem lastUp?_of_up {links : List LinkStatus} (up : ∀ last, links.getLast? = some last → last.up = true) :
    lastUp? links = links.getLast? := by
  cases last : links.getLast? with
  | none =>
    rw [List.getLast?_eq_none_iff.mp last]
    rfl
  | some link =>
    obtain ⟨earlier, rfl⟩ := List.getLast?_eq_some_iff.mp last
    rw [lastUp?, List.filter_append, List.filter_cons_of_pos (up link last)]
    exact List.getLast?_concat ..

end LinkStatus

/-- A poll of the link, as it is seen from outside. -/
structure Polled where
  reading : Except Failure LinkStatus
  result : Except Failure Bool
  deeds : List Deed
  /-- What the monitor says of the link afterwards. -/
  current : Option LinkStatus

namespace Polled

def failed (failure : Failure) (current : Option LinkStatus) : Polled := ⟨.error failure, .error failure, [], current⟩

def unchanged (link : LinkStatus) (current : Option LinkStatus) : Polled := ⟨.ok link, .ok false, [], current⟩

/-- The link reads `link`, and the application is told of `news`. -/
def announced (link news : LinkStatus) (found : UInt32) : Polled := ⟨.ok link, .ok true, news.deeds found, some news⟩

end Polled

/-- The link that the application is told of, if that is what is done. -/
def Deed.link? : Deed → Option LinkStatus
  | .tell (.linkChanged link) => some link
  | _ => none

def Polled.told (poll : Polled) : List LinkStatus := poll.deeds.filterMap Deed.link?

/-- All that the application was told of the link in some polls. -/
def allTold (polls : List Polled) : List LinkStatus := polls.flatMap Polled.told

/-- A poll, with what is seen of it from outside. -/
def LinkMonitor.polled [Bus σ] (monitor : LinkMonitor) (source : Attempt σ Failure LinkStatus) (app : Application g σ)
    (board : Board g σ) : Option (Polled × LinkMonitor × Board g σ) :=
  (monitor.poll (Traced.aside source.run : StateM _ _) app.traced (board.traced [])).map fun answer =>
    (⟨(source.run board.world).1, answer.1.2, answer.2.world.deeds, answer.1.1.last⟩, answer.1.1, answer.2.untraced)

/-- The polls of a monitor from the first one on. Whatever happens between two of them may leave any board. -/
inductive Polls (g : Geometry) (σ : Type) [Bus σ] : List Polled → LinkMonitor → Prop
  | none : Polls g σ [] {}
  | poll {polls monitor poll next after} (source) (app : Application g σ) (board) : Polls g σ polls monitor →
      monitor.polled source app board = some (poll, next, after) → Polls g σ (polls ++ [poll]) next

/-- What is expected of a poll that comes after others. -/
structure Polled.Faithful (before : List Polled) (poll : Polled) : Prop where
  fails : ∀ failure, poll.reading = .error failure → poll.result = .error failure ∧ poll.deeds = []
  returns : ∀ link, poll.reading = .ok link → ∃ news, poll.result = .ok news
  first : (∀ other ∈ before, ∀ news, other.result ≠ .ok news) → ∀ news, poll.result = .ok news → poll.told ≠ []
  tells : poll.result = .ok true ↔ poll.told ≠ []
  once : poll.told.length ≤ 1
  still : poll.told = [] → poll.deeds = []
  up : ∀ link ∈ poll.told, link.up = true → poll.reading = .ok link ∧ ∃ found, poll.deeds = link.deeds found
  down : ∀ link ∈ poll.told, link.up = false → poll.deeds = [.tell (.linkChanged link)] ∧
    ∃ reading, poll.reading = .ok reading ∧ link = reading.inModeOf (LinkStatus.lastUp? (allTold before))
  current : poll.current = (allTold before ++ poll.told).getLast?

theorem LinkStatus.told_deeds (link : LinkStatus) (found : UInt32) :
    (link.deeds found).filterMap Deed.link? = [link] := by
  unfold deeds modeDeeds
  cases link.up with
  | true => rfl
  | false => rfl

theorem allTold_concat (polls : List Polled) (poll : Polled) :
    allTold (polls ++ [poll]) = allTold polls ++ poll.told := by
  rw [allTold, List.flatMap_append, List.flatMap_singleton]
  rfl

namespace LinkMonitor

/-- The ways in which a poll is entered in a list of polls, and the monitor that it leaves. -/
inductive Enters (monitor : LinkMonitor) : Polled → LinkMonitor → Prop
  | failed (failure) : Enters monitor (.failed failure monitor.last) monitor
  | unchanged {link} : monitor.change? link = none → Enters monitor (.unchanged link monitor.last) monitor
  | told {link news} (found) : monitor.change? link = some news →
      Enters monitor (.announced link news found) { last := some news }

theorem inMode_traced [Bus σ] (board : Board g σ) (news : LinkStatus) :
    ∃ found, (board.traced []).inMode news = (board.inMode news).traced (news.modeDeeds found) := by
  unfold Board.inMode LinkStatus.modeDeeds
  cases news.up with
  | true => exact ⟨_, rfl⟩
  | false => exact ⟨0, rfl⟩

/-- A poll that is looked at is the poll that it would be otherwise. -/
theorem polled_poll [Bus σ] (monitor : LinkMonitor) (source : Attempt σ Failure LinkStatus) (app : Application g σ)
    (board : Board g σ) :
    (monitor.polled source app board).map (fun answer => ((answer.2.1, answer.1.result), answer.2.2)) =
      monitor.poll source app board := by
  have read : Board.attempt (Traced.aside source.run : StateM _ _) (board.traced []) =
      ((Board.attempt source board).1, (Board.attempt source board).2.traced []) := rfl
  unfold polled poll
  rw [Option.map_map, Call.quiet_bind_apply, Call.quiet_bind_apply, observe_apply, observe_apply, read]
  obtain ⟨reading, middle⟩ := Board.attempt source board
  cases reading with
  | error failure => rfl
  | ok link =>
    dsimp only
    cases monitor.change? link with
    | none => rfl
    | some news =>
      obtain ⟨found, mode⟩ := inMode_traced middle news
      dsimp only
      rw [mode, Call.bind_apply, Call.bind_apply]
      change (((app.onEvent (.linkChanged news) (middle.inMode news)).map _).bind _).map _ = _
      cases app.onEvent (.linkChanged news) (middle.inMode news) with
      | none => rfl
      | some answer => rfl

theorem polled_enters [Bus σ] {monitor next : LinkMonitor} {source : Attempt σ Failure LinkStatus}
    {app : Application g σ} {board after : Board g σ} {poll : Polled}
    (run : monitor.polled source app board = some (poll, next, after)) : monitor.Enters poll next := by
  obtain ⟨answer, traced, same⟩ := Option.map_eq_some_iff.mp run
  obtain ⟨rfl, rest⟩ := Prod.mk.inj same
  obtain ⟨rfl, -⟩ := Prod.mk.inj rest
  have outcome := poll_comes traced
  have read : Board.attempt (Traced.aside source.run : StateM _ _) (board.traced []) =
      ((source.run board.world).1, (Board.attempt source board).2.traced []) := rfl
  rw [read] at outcome
  generalize (source.run board.world).1 = reading at outcome ⊢
  cases outcome with
  | failed failure => exact .failed failure
  | unchanged _ still => exact .unchanged still
  | @told link news _ disposition _ change upcall =>
    obtain ⟨found, mode⟩ := inMode_traced (Board.attempt source board).2 news
    rw [mode] at upcall
    obtain ⟨_, _, back⟩ := Option.map_eq_some_iff.mp upcall
    obtain ⟨_, rfl⟩ := Prod.mk.inj back
    exact .told found change

/-- What a monitor remembers of the polls that were made, and what can be said of them. -/
structure Remembers (monitor : LinkMonitor) (polls : List Polled) : Prop where
  last : monitor.last = (allTold polls).getLast?
  alternate : (allTold polls).IsChain (·.up ≠ ·.up)
  faithful : ∀ before poll after, polls = before ++ poll :: after → poll.Faithful before

namespace Remembers

variable {monitor next : LinkMonitor} {polls : List Polled} {poll : Polled}

/-- As long as no poll succeeds there is nothing to tell. -/
theorem nothing_told (remembers : monitor.Remembers polls)
    (failed : ∀ other ∈ polls, ∀ news, other.result ≠ .ok news) : allTold polls = [] := by
  refine List.flatMap_eq_nil_iff.mpr fun other among => ?_
  obtain ⟨before, after, place⟩ := List.append_of_mem among
  have faithful := remembers.faithful before other after place
  cases reading : other.reading with
  | error failure =>
    rw [Polled.told, (faithful.fails failure reading).2]
    rfl
  | ok link =>
    obtain ⟨news, result⟩ := faithful.returns link reading
    exact absurd result (failed other among news)

/-- A poll that does nothing, with the monitor as it was. -/
theorem quiet {reading : Except Failure LinkStatus} {result : Except Failure Bool} (remembers : monitor.Remembers polls)
    (nothing : result ≠ .ok true) (fails : ∀ failure, reading = .error failure → result = .error failure)
    (returns : ∀ link, reading = .ok link → result = .ok false ∧ monitor.last ≠ none) :
    Polled.Faithful polls ⟨reading, result, [], monitor.last⟩ where
  fails failure same := ⟨fails failure same, rfl⟩
  returns link same := ⟨false, (returns link same).1⟩
  first failed news same := by
    cases reading with
    | error failure => cases (fails failure rfl).symm.trans same
    | ok link =>
      refine absurd ?_ (returns link rfl).2
      rw [remembers.last, remembers.nothing_told failed]
      rfl
  tells := iff_of_false nothing fun told => told rfl
  once := Nat.zero_le 1
  still _ := rfl
  up _ among := absurd among List.not_mem_nil
  down _ among := absurd among List.not_mem_nil
  current := by
    change monitor.last = (allTold polls ++ []).getLast?
    rw [remembers.last, List.append_nil]

/-- A link that comes up is told of as it was read, and one that goes down in the mode in which it came up. -/
theorem news {link news : LinkStatus} (remembers : monitor.Remembers polls)
    (change : monitor.change? link = some news) :
    (news.up = true → news = link) ∧
      (news.up = false → news = link.inModeOf (LinkStatus.lastUp? (allTold polls))) := by
  obtain ⟨other, what⟩ := change?_eq_some.mp change
  cases up : link.up with
  | true =>
    rw [if_pos up] at what
    exact ⟨fun _ => what, fun gone => by rw [what, up] at gone; cases gone⟩
  | false =>
    rw [if_neg (by simp [up])] at what
    have mode : LinkStatus.lastUp? (allTold polls) = monitor.last := by
      rw [remembers.last]
      refine LinkStatus.lastUp?_of_up fun last there => ?_
      rw [← remembers.last] at there
      simpa [there, up] using other
    rw [mode]
    refine ⟨fun here => ?_, fun _ => what⟩
    rw [what, LinkStatus.inModeOf_up, up] at here
    cases here

theorem faithful_next (remembers : monitor.Remembers polls) (enters : monitor.Enters poll next) :
    poll.Faithful polls := by
  cases enters with
  | failed failure =>
    refine remembers.quiet (by simp) (fun _ same => ?_) fun _ same => ?_
    · rw [Except.error.inj same]
    · cases same
  | @unchanged link still =>
    refine remembers.quiet (by simp) (fun _ same => ?_) fun _ _ => ⟨rfl, fun fresh => ?_⟩
    · cases same
    · have known := change?_eq_none.mp still
      rw [fresh] at known
      cases known
  | @told link news found change =>
    have told : (Polled.announced link news found).told = [news] := news.told_deeds found
    obtain ⟨up, down⟩ := remembers.news change
    exact {
      fails := fun _ same => by cases same
      returns := fun _ _ => ⟨true, rfl⟩
      first := fun _ _ _ => by rw [told]; simp
      tells := iff_of_true rfl (by rw [told]; simp)
      once := by rw [told]; exact Nat.le_refl 1
      still := fun none => by rw [told] at none; cases none
      up := fun link among here => by
        rw [told, List.mem_singleton] at among
        subst among
        exact ⟨congrArg Except.ok (up here).symm, found, rfl⟩
      down := fun other among gone => by
        rw [told, List.mem_singleton] at among
        subst among
        refine ⟨?_, link, rfl, down gone⟩
        change LinkStatus.deeds _ _ = _
        rw [LinkStatus.deeds, LinkStatus.modeDeeds, gone]
        rfl
      current := by
        change some news = _
        rw [told]
        exact (List.getLast?_concat ..).symm }

/-- The links that are told of come up and go down in turn. -/
theorem alternate_next (remembers : monitor.Remembers polls) (enters : monitor.Enters poll next) :
    (allTold (polls ++ [poll])).IsChain (·.up ≠ ·.up) := by
  rw [allTold_concat]
  cases enters with
  | failed failure => exact (List.append_nil _).symm ▸ remembers.alternate
  | unchanged _ => exact (List.append_nil _).symm ▸ remembers.alternate
  | @told link news found change =>
    rw [show (Polled.announced link news found).told = [news] from news.told_deeds found, List.isChain_append]
    refine ⟨remembers.alternate, .singleton _, fun last there first here => ?_⟩
    obtain rfl := Option.some.inj here
    obtain ⟨other, what⟩ := change?_eq_some.mp change
    have up : news.up = link.up := by
      rw [what]
      split
      · rfl
      · exact LinkStatus.inModeOf_up ..
    rw [remembers.last, there] at other
    exact fun same => other (congrArg some (same.trans up))

theorem entered (remembers : monitor.Remembers polls) (enters : monitor.Enters poll next) :
    next.Remembers (polls ++ [poll]) where
  last := by
    have current : poll.current = next.last := by cases enters <;> rfl
    rw [← current, (remembers.faithful_next enters).current, allTold_concat]
  alternate := remembers.alternate_next enters
  faithful before other after place := by
    rcases List.eq_nil_or_concat after with rfl | ⟨rest, last, rfl⟩
    · obtain ⟨rfl, same⟩ := List.append_inj' place rfl
      exact List.singleton_inj.mp same ▸ remembers.faithful_next enters
    · rw [List.concat_eq_append, ← List.cons_append, ← List.append_assoc] at place
      exact remembers.faithful before other rest (List.append_inj' place rfl).1

end Remembers

/-- Whatever the readings, whatever the application does when it is told of them, and whatever happens meanwhile: the
links that the application is told of are a faithful log of what was read. What is seen of the next poll, from any
board, is what the driver does. -/
theorem link_log_faithful [Bus σ] {polls : List Polled} {monitor : LinkMonitor} (polled : Polls g σ polls monitor) :
    (allTold polls).IsChain (·.up ≠ ·.up) ∧
      (∀ before poll after, polls = before ++ poll :: after → poll.Faithful before) ∧
      ∀ source (app : Application g σ) board,
        (monitor.polled source app board).map (fun answer => ((answer.2.1, answer.1.result), answer.2.2)) =
          monitor.poll source app board := by
  have remembers : monitor.Remembers polls := by
    induction polled with
    | none => exact ⟨rfl, .nil, fun before poll after place => by simp at place⟩
    | poll _ _ _ _ run ih => exact ih.entered (polled_enters run)
  exact ⟨remembers.alternate, remembers.faithful, monitor.polled_poll⟩

/-- A link that is down comes up at ten megabits, cannot be read once, and is lost. -/
theorem link_log_faithful_lost :
    let polls : List Polled := [.announced {} {} 0, .announced ⟨true, .ten, .half⟩ ⟨true, .ten, .half⟩ 0,
      .failed (.bus .phyError) (some ⟨true, .ten, .half⟩), .announced {} ⟨false, .ten, .half⟩ 0]
    (allTold polls).IsChain (·.up ≠ ·.up) ∧
      (∀ before poll after, polls = before ++ poll :: after → poll.Faithful before) ∧
      (({ last := some ⟨false, .ten, .half⟩ } : LinkMonitor).poll (return {}) .accepting
        (.untried ⟨0, 0x10000, 0x20000⟩ {} : Board .smallest RestingPeripheral)).map (·.1.2) = some (.ok false) := by
  let board : Board .smallest RestingPeripheral := .untried ⟨0, 0x10000, 0x20000⟩ {}
  have down : Polls .smallest RestingPeripheral [.announced {} {} 0] ⟨some {}⟩ :=
    .poll (return {}) .accepting board .none rfl
  have up : Polls .smallest RestingPeripheral
      [.announced {} {} 0, .announced ⟨true, .ten, .half⟩ ⟨true, .ten, .half⟩ 0] ⟨some ⟨true, .ten, .half⟩⟩ :=
    down.poll (return ⟨true, .ten, .half⟩) .accepting board rfl
  have unread := up.poll (throw (.bus .phyError)) .accepting board rfl
  obtain ⟨alternate, faithful, seen⟩ := link_log_faithful (unread.poll (return {}) .accepting board rfl)
  refine ⟨alternate, faithful, ?_⟩
  rw [← seen]
  rfl

end LinkMonitor

end EthernetMac
