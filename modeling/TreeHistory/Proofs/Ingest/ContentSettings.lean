import Mathlib
import TreeHistory.Proofs.Ingest.Origins

/-!
# The content a revision sets

The events at one path bear on the content of the file there in order: an event that adds or
replaces a node starts afresh with its data, a modification sets its data, a deletion sets
nothing (`settle`, folded by `contentSettings`). While a revision is applied, its schedule holds,
for each live file, the last data the events at its path set so far (`Ingestor.ContentTracks`);
each event keeps this, and so does the whole revision (`Ingestor.apply_contentTracks`).
-/

namespace TreeHistory

/-! ## Content-setting events -/

/-- How one event at a file's path bears on the data its content takes, `plain` when the file has
no predecessor. -/
def settle (plain : Bool) (settings : List (Option String)) (change : Change) :
    List (Option String) :=
  if change.action.creates then (if change.data.isSome || plain then [change.data] else [])
  else if change.action = .modified then settings ++ [change.data]
  else settings

/-- The data the events at one path, in order, set for the file there since the last event that
adds or replaces a node, in the order they set it. -/
def contentSettings (plain : Bool) (events : List Change) : List (Option String) :=
  events.foldl (settle plain) []

section Settings

variable {plain : Bool} {settings : List (Option String)} {change : Change}

theorem settle_of_creates (creates : change.action.creates = true) :
    settle plain settings change = if change.data.isSome || plain then [change.data] else [] := by
  simp [settle, creates]

theorem settle_of_modified (modified : change.action = .modified) :
    settle plain settings change = settings ++ [change.data] := by
  simp [settle, modified, ChangeAction.creates]

theorem settle_of_deleted (deleted : change.action = .deleted) :
    settle plain settings change = settings := by
  simp [settle, deleted, ChangeAction.creates]

@[simp] theorem contentSettings_nil (plain : Bool) : contentSettings plain [] = [] := rfl

theorem contentSettings_append_singleton (plain : Bool) (events : List Change) (change : Change) :
    contentSettings plain (events ++ [change]) = settle plain (contentSettings plain events) change := by
  simp [contentSettings, List.foldl_append]

/-- Without an event that adds or replaces a node, whether the file is plain does not matter. -/
theorem contentSettings_of_not_creates (events : List Change)
    (untouched : ∀ change ∈ events, change.action.creates = false) :
    contentSettings true events = contentSettings false events := by
  induction events using List.reverseRecOn with
  | nil => rfl
  | append_singleton events last ih =>
    have lastKept := untouched last (by simp)
    rw [contentSettings_append_singleton, contentSettings_append_singleton,
      ih fun change mem => untouched change (by simp [mem])]
    simp [settle, lastKept]

/-- A plain file takes, when the events set no data for it, an empty body from the last event that
adds or replaces it. -/
theorem getLast?_contentSettings_true (events : List Change) :
    (contentSettings true events).getLast? = (contentSettings false events).getLast?.or
      (if events.any (·.action.creates) then some none else none) := by
  induction events using List.reverseRecOn with
  | nil => rfl
  | append_singleton events last ih =>
    rw [contentSettings_append_singleton, contentSettings_append_singleton]
    by_cases creates : last.action.creates = true
    · rw [settle_of_creates creates, settle_of_creates creates]
      cases data : last.data <;> simp [creates]
    · by_cases modified : last.action = .modified
      · rw [settle_of_modified modified, settle_of_modified modified]
        simp
      · have deleted : last.action = .deleted := by
          cases action : last.action <;> simp_all [ChangeAction.creates]
        rw [settle_of_deleted deleted, settle_of_deleted deleted, ih]
        simp [creates]

end Settings

/-! ## Content maps -/

namespace ContentMap

theorem get?_append (first second : ContentMap) (id : NodeId) :
    get? (first ++ second) id = (get? first id).or (get? second id) := by
  simp [get?, List.find?_append, Option.map_or]

/-- Keeping the entries whose ids pass a test keeps the content of an id that passes it. -/
theorem get?_filter (map : ContentMap) (test : NodeId → Bool) (id : NodeId) :
    get? (map.filter fun entry => test entry.1) id = if test id then map.get? id else none := by
  unfold get?
  rw [List.find?_filter]
  split
  · rename_i passes
    congr 1
    refine List.find?_congr fun entry _ => ?_
    by_cases same : entry.1 = id <;> simp [same, passes]
  · rename_i fails
    rw [Option.map_eq_none_iff, List.find?_eq_none]
    intro entry _
    by_cases same : entry.1 = id <;> simp [same, fails]

theorem get?_erase (map : ContentMap) (id id' : NodeId) :
    (map.erase id).get? id' = if id' = id then none else map.get? id' := by
  have erased := get?_filter map (fun key => key != id) id'
  by_cases same : id' = id <;> simp_all [erase]

theorem get?_set (map : ContentMap) (id id' : NodeId) (body : ContentBody) :
    (map.set id body).get? id' = if id' = id then some body else map.get? id' := by
  unfold set
  rw [get?_append, get?_append, get?_filter _ fun key => decide (key < id),
    get?_filter _ fun key => decide (id < key), get?_erase]
  rcases lt_trichotomy id' id with below | rfl | above
  · simp [below, ne_of_lt below, ne_of_gt below, not_lt_of_gt below, get?]
  · simp [get?]
  · simp [above, ne_of_lt above, ne_of_gt above, not_lt_of_gt above, get?]

/-- An id no entry is for has no content. -/
theorem get?_eq_none {map : ContentMap} {id : NodeId} (absent : ∀ entry ∈ map, entry.1 ≠ id) :
    map.get? id = none := by
  cases found : map.get? id with
  | none => rfl
  | some body =>
    obtain ⟨entry, mem, same⟩ := mem_of_get?_eq_some found
    exact absurd same (absent entry mem)

/-- An id that no node of a well-formed tree has gets no content from a map whose entries are for
nodes of the tree. -/
theorem get?_eq_none_of_fresh {map : ContentMap} {tree : LiveTree} (wf : tree.WellFormed)
    (live : ∀ entry ∈ map, (tree.recordOf? entry.1).isSome) {id : NodeId}
    (fresh : ∀ node ∈ tree.nodes, node.id ≠ id) : map.get? id = none := by
  refine get?_eq_none fun entry mem same => ?_
  obtain ⟨record, found⟩ := Option.isSome_iff_exists.1 (live entry mem)
  obtain ⟨node, nodeMem, nodeId, -⟩ := wf.recordOf?_eq_some_iff.1 found
  exact fresh node nodeMem (nodeId.trans same)

end ContentMap

/-- The changes of the set at `path`, once their own paths are normalized, in their order. -/
def ChangeSet.changesAt (changeSet : ChangeSet) (path : String) : List Change :=
  changeSet.changes.filter fun change => decide ((Path.normalize change.path).toOption = some path)

/-- A node at the root's path in a well-formed tree is the root, a directory. -/
theorem LiveTree.WellFormed.not_file_of_root {tree : LiveTree} (wf : tree.WellFormed)
    {node : LiveNode} (mem : node ∈ tree.nodes) (atRoot : node.path = Path.root) :
    node.kind.isFile = false := by
  obtain ⟨children, rootMem⟩ := wf.rootMem
  rw [wf.eq_of_path_eq mem rootMem atRoot]
  rfl

namespace Ingestor

open LiveTree

/-! ## The content the schedule holds -/

/-- The changes among `events`, changes with their normalized paths, at `path`, in order. -/
def eventsAt (events : List (String × Change)) (path : String) : List Change :=
  (events.filter fun event => event.1 = path).map (·.2)

theorem eventsAt_append_singleton (events : List (String × Change)) (event : String × Change)
    (path : String) :
    eventsAt (events ++ [event]) path =
      eventsAt events path ++ if event.1 = path then [event.2] else [] := by
  by_cases same : event.1 = path <;> simp [eventsAt, same]

theorem eventsAt_of_ne {events : List (String × Change)} {event : String × Change} {path : String}
    (apart : event.1 ≠ path) : eventsAt (events ++ [event]) path = eventsAt events path := by
  rw [eventsAt_append_singleton, if_neg apart, List.append_nil]

theorem eventsAt_eq_nil {events : List (String × Change)} {path : String}
    (apart : ∀ event ∈ events, event.1 ≠ path) : eventsAt events path = [] := by
  simpa [eventsAt, List.filter_eq_nil_iff] using apart

/-- The content a live node is due, against the changes at each path: for a file, the last data
the changes at its path set, for any other node none. -/
def settledContent (changesAt : String → List Change) (node : LiveNode) : Option ContentBody :=
  if node.kind.isFile then ((contentSettings false (changesAt node.path)).getLast?).map ContentBody.mk
  else none

/-- The schedule holds, for every live node, the content it is due against the changes at each
path. -/
structure ContentTracks (changesAt : String → List Change) (s : Ingestor) : Prop where
  content : ∀ node ∈ s.tree.nodes, s.schedule.content.get? node.id = settledContent changesAt node
  untouched : ∀ node ∈ s.tree.nodes, node.id ∉ s.schedule.createdSet →
    ∀ change ∈ changesAt node.path, change.action.creates = false

/-- The account of a revision before its first event: nothing set, no change seen. -/
theorem contentTracks_start {s : Ingestor} (noContent : s.schedule.content = []) :
    ContentTracks (eventsAt []) s where
  content node _ := by simp [noContent, ContentMap.get?, settledContent, eventsAt]
  untouched node _ _ change mem := by simp [eventsAt] at mem

namespace ContentTracks

variable {changesAt changesAt' : String → List Change} {s : Ingestor}
  {events : List (String × Change)}

/-- The account holds against any changes that agree at the paths of the live nodes. -/
theorem relabel (tracks : ContentTracks changesAt s)
    (agree : ∀ node ∈ s.tree.nodes, changesAt' node.path = changesAt node.path) :
    ContentTracks changesAt' s where
  content node mem := by
    rw [tracks.content node mem]
    simp only [settledContent, agree node mem]
  untouched node mem notMade := by
    rw [agree node mem]
    exact tracks.untouched node mem notMade

/-- Dropping a childless node keeps the account: it unsets the dropped node's content only. -/
theorem drop (tracks : ContentTracks changesAt s) (wf : s.tree.WellFormed) {path : String}
    {dropped : LiveTree × LiveNode} (dropping : s.tree.drop path = .ok dropped) :
    ContentTracks changesAt
      { s with tree := dropped.1, schedule := s.schedule.afterDrop dropped.2 } := by
  obtain ⟨gone, -, -, -, -, rfl⟩ := wf.drop_eq_withDropped dropping
  constructor
  · intro node mem
    obtain ⟨old, oldMem, apart, rfl⟩ := mem_withDropped.1 mem
    simp only [Schedule.afterDrop_content]
    rw [ContentMap.get?_erase, if_neg apart]
    exact tracks.content old oldMem
  · intro node mem notMade
    obtain ⟨old, oldMem, apart, rfl⟩ := mem_withDropped.1 mem
    refine tracks.untouched old oldMem fun made => notMade ?_
    simpa using (List.mem_erase_of_ne apart).2 made

/-- An event that neither adds nor replaces a node leaves every node untouched that was. -/
theorem untouched_append (tracks : ContentTracks (eventsAt events) s) {event : String × Change}
    (notCreating : event.2.action.creates = false) :
    ∀ node ∈ s.tree.nodes, node.id ∉ s.schedule.createdSet →
      ∀ change ∈ eventsAt (events ++ [event]) node.path, change.action.creates = false := by
  intro node mem notMade change changeMem
  rw [eventsAt_append_singleton] at changeMem
  rcases List.mem_append.1 changeMem with old | new
  · exact tracks.untouched node mem notMade change old
  · split at new
    · rw [List.mem_singleton.1 new]
      exact notCreating
    · exact absurd new List.not_mem_nil

/-- An event that neither adds nor replaces a node, and leaves the content due to every node at
its path as it was, keeps the account. -/
theorem append_keeping (tracks : ContentTracks (eventsAt events) s) {event : String × Change}
    (notCreating : event.2.action.creates = false)
    (keeps : ∀ node ∈ s.tree.nodes, node.path = event.1 →
      settledContent (eventsAt (events ++ [event])) node = settledContent (eventsAt events) node) :
    ContentTracks (eventsAt (events ++ [event])) s where
  content node mem := by
    rw [tracks.content node mem]
    by_cases atEvent : node.path = event.1
    · exact (keeps node mem atEvent).symm
    · simp only [settledContent, eventsAt_of_ne (Ne.symm atEvent)]
  untouched := tracks.untouched_append notCreating

/-- A deletion keeps the account: it sets no content. -/
theorem deleted (tracks : ContentTracks (eventsAt events) s) {event : String × Change}
    (deleting : event.2.action = .deleted) : ContentTracks (eventsAt (events ++ [event])) s := by
  refine tracks.append_keeping (by simp [deleting, ChangeAction.creates]) fun node _ atEvent => ?_
  simp only [settledContent, eventsAt_append_singleton, if_pos atEvent.symm,
    contentSettings_append_singleton, settle_of_deleted deleting]

/-- A modification at a path where no live file sits keeps the account. -/
theorem modified_of_not_file (tracks : ContentTracks (eventsAt events) s)
    {event : String × Change} (modifying : event.2.action = .modified)
    (noFile : ∀ node ∈ s.tree.nodes, node.path = event.1 → node.kind.isFile = false) :
    ContentTracks (eventsAt (events ++ [event])) s := by
  refine tracks.append_keeping (by simp [modifying, ChangeAction.creates]) fun node mem atEvent => ?_
  simp [settledContent, noFile node mem atEvent]

/-- Setting the content of the live file at a modification's path keeps the account. -/
theorem modified_file (tracks : ContentTracks (eventsAt events) s) (wf : s.tree.WellFormed)
    {path : String} {change : Change} (modifying : change.action = .modified) {file : LiveNode}
    (fileMem : file ∈ s.tree.nodes) (filePath : file.path = path) (isFile : file.kind.isFile = true) :
    ContentTracks (eventsAt (events ++ [(path, change)]))
      { s with schedule := { s.schedule with
        content := s.schedule.content.set file.id { data := change.data } } } where
  content node mem := by
    dsimp only at mem ⊢
    rw [ContentMap.get?_set]
    split
    · -- The file at the path takes the modification's data, the last set there.
      rename_i sameId
      rw [wf.eq_of_id_eq mem fileMem sameId]
      simp [settledContent, isFile, filePath, eventsAt_append_singleton,
        contentSettings_append_singleton, settle_of_modified modifying]
    · -- Every other node sits at another path.
      rename_i otherId
      have apart : node.path ≠ path := fun same =>
        otherId (congrArg LiveNode.id (wf.eq_of_path_eq mem fileMem (same.trans filePath.symm)))
      have unchanged : eventsAt (events ++ [(path, change)]) node.path = eventsAt events node.path :=
        eventsAt_of_ne (Ne.symm apart)
      rw [tracks.content node mem]
      simp only [settledContent, unchanged]
  untouched := tracks.untouched_append (by simp [modifying, ChangeAction.creates])

/-- Creating a node at a free path for an event that adds or replaces a node keeps the account. -/
theorem createAt (tracks : ContentTracks (eventsAt events) s) (wf : s.tree.WellFormed)
    (live : ∀ entry ∈ s.schedule.content, (s.tree.recordOf? entry.1).isSome) {new : NewNode}
    {created : LiveTree × LiveNode} (creating : s.tree.create new = .ok created) {change : Change}
    (creates : change.action.creates = true) {schedule : Schedule}
    (recorded : s.schedule.Creates schedule new.id) (lastId : NodeId) :
    ContentTracks (eventsAt (events ++ [(new.path, change)]))
      { s with lastId := lastId, tree := created.1, schedule := { schedule with
        content := if new.kind.isFile && change.data.isSome then
          schedule.content.set new.id { data := change.data } else schedule.content } } := by
  obtain ⟨parent, name, parentMem, -, split, freshId, nameFree, rfl⟩ := wf.create_eq_withCreated creating
  have free := wf.path_ne_of_name_free parentMem split nameFree
  have unset : s.schedule.content.get? new.id = none :=
    ContentMap.get?_eq_none_of_fresh wf live freshId
  have unchanged : ∀ old ∈ s.tree.nodes,
      eventsAt (events ++ [(new.path, change)]) old.path = eventsAt events old.path :=
    fun old oldMem => eventsAt_of_ne (Ne.symm (free old oldMem))
  constructor
  · intro node mem
    dsimp only
    rcases mem_withCreated.1 mem with rfl | ⟨old, oldMem, rfl⟩
    · -- The new node has the event's data, when it is a file and the event carries data.
      simp only [createdNode, settledContent, eventsAt_append_singleton, if_pos,
        contentSettings_append_singleton, settle_of_creates creates, Bool.or_false]
      split <;> rename_i asked <;> simp only [ContentMap.get?_set, recorded.content, unset] <;>
        cases isFile : new.kind.isFile <;> cases data : change.data <;> simp_all
    · -- A node there was keeps its content, at a path the event did not reach.
      have other : old.id ≠ new.id := freshId old oldMem
      have kept : schedule.content.get? old.id = settledContent (eventsAt events) old := by
        rw [recorded.content]
        exact tracks.content old oldMem
      split
      · rw [ContentMap.get?_set, if_neg other, kept]
        simp only [settledContent, unchanged old oldMem]
      · rw [kept]
        simp only [settledContent, unchanged old oldMem]
  · intro node mem notMade
    rcases mem_withCreated.1 mem with rfl | ⟨old, oldMem, rfl⟩
    · exact absurd (by rw [recorded.createdSet]; simp [createdNode]) notMade
    · have notMadeBefore : old.id ∉ s.schedule.createdSet := fun made =>
        notMade (by rw [recorded.createdSet]; exact List.mem_append_left _ made)
      rw [unchanged old oldMem]
      exact tracks.untouched old oldMem notMadeBefore

/-- Making copies keeps the account when the copies go to paths no change has reached: a copy
has no content set and none due. -/
theorem copy {st st' : Ingestor} (tracks : ContentTracks changesAt st) (wf : st.tree.WellFormed)
    (live : ∀ entry ∈ st.schedule.content, (st.tree.recordOf? entry.1).isSome) {R : Revnum}
    {copies : List (String × NodeRecord)} (copying : Copied R st st' copies)
    (unreached : ∀ entry ∈ copies, changesAt entry.1 = []) : ContentTracks changesAt st' := by
  have sameContent : st'.schedule.content = st.schedule.content := by
    rw [copying.schedule]
    rfl
  have createdSet : st'.schedule.createdSet =
      st.schedule.createdSet ++ NodeId.following st.lastId copies.length := by
    rw [copying.schedule]
    rfl
  constructor
  · intro node mem
    rw [sameContent]
    rcases copying.onlyMade node mem with ⟨old, oldMem, record⟩ | ⟨i, h, isCopy⟩
    · -- A node there was keeps its record, so its content and what is due to it.
      have sameId : node.id = old.id := congrArg NodeRecord.id record
      have samePath : node.path = old.path := congrArg NodeRecord.path record
      have sameKind : node.kind = old.kind := congrArg NodeRecord.kind record
      rw [sameId, tracks.content old oldMem]
      simp only [settledContent, samePath, sameKind]
    · -- A copy has a fresh id and sits at a path no change has reached.
      obtain ⟨copy, copyMem, copyId, -, copyPath, -, -⟩ := copying.made i h
      rw [copying.wellFormed.eq_of_id_eq mem copyMem (isCopy.trans copyId.symm), copyId,
        ContentMap.get?_eq_none_of_fresh wf live (fun old oldMem => copying.fresh i h old oldMem)]
      simp [settledContent, copyPath, unreached _ (List.getElem_mem h)]
  · intro node mem notMade
    rcases copying.onlyMade node mem with ⟨old, oldMem, record⟩ | ⟨i, h, isCopy⟩
    · have sameId : node.id = old.id := congrArg NodeRecord.id record
      have samePath : node.path = old.path := congrArg NodeRecord.path record
      rw [samePath]
      refine tracks.untouched old oldMem fun made => notMade ?_
      rw [createdSet, sameId]
      exact List.mem_append_left _ made
    · refine absurd ?_ notMade
      rw [createdSet, isCopy]
      exact List.mem_append_right _ (List.mem_map.2 ⟨i, List.mem_range.2 h, rfl⟩)

end ContentTracks

/-- Creating a node, and setting its content or not, leaves content only for live nodes. -/
theorem live_createAt {s : Ingestor} (wf : s.tree.WellFormed)
    (live : ∀ entry ∈ s.schedule.content, (s.tree.recordOf? entry.1).isSome) {new : NewNode}
    {created : LiveTree × LiveNode} (creating : s.tree.create new = .ok created)
    {schedule : Schedule} (recorded : s.schedule.Creates schedule new.id) (c : Bool)
    (body : ContentBody) :
    ∀ entry ∈ (if c then schedule.content.set new.id body else schedule.content),
      (created.1.recordOf? entry.1).isSome := by
  obtain ⟨parent, name, -, -, -, freshId, -, rfl⟩ := wf.create_eq_withCreated creating
  intro entry mem
  rw [recordOf?_withCreated freshId]
  split
  · rfl
  · rename_i other
    rw [recorded.content] at mem
    split at mem
    · rcases ContentMap.mem_set.1 mem with rfl | ⟨old, -⟩
      · exact absurd rfl other
      · exact live entry old
    · exact live entry mem

/-- Setting the content of one node when asked to, then running `rest`, ran `rest` from the
ingestor with the content set when asked. -/
theorem run_setContent_then {α : Type} {c : Prop} [Decidable c] {id : NodeId}
    {body : ContentBody} {rest : IngestM α} {s s' : Ingestor} {a : α}
    (ran : s.run (if c then
        updateSchedule (fun schedule => { schedule with content := schedule.content.set id body }) >>=
          fun _ => rest
      else rest) = (s', .ok a)) :
    { s with schedule := { s.schedule with
      content := if c then s.schedule.content.set id body else s.schedule.content } }.run rest =
      (s', .ok a) := by
  split at ran
  · rename_i asked
    obtain ⟨s₁, u, setRan, ran⟩ := run_bind_eq_ok.1 ran
    simp only [run_updateSchedule, Prod.mk.injEq] at setRan
    obtain ⟨rfl, -⟩ := setRan
    rw [if_pos asked]
    exact ran
  · rename_i notAsked
    rw [if_neg notAsked]
    exact ran

/-- Modifying a file keeps the account against the events with the modification: the live file at
its path takes its data, and a node of another kind there takes nothing. -/
theorem modifyFile_contentTracks {s s' : Ingestor} {events : List (String × Change)} {path : String}
    {change : Change} (wf : s.tree.WellFormed) (tracks : ContentTracks (eventsAt events) s)
    (modifying : change.action = .modified)
    (ran : s.run (modifyFile path change) = (s', .ok ())) :
    ContentTracks (eventsAt (events ++ [(path, change)])) s' := by
  unfold modifyFile at ran
  rw [run_bind, run_get] at ran
  obtain ⟨s₁, node, found, ran⟩ := run_bind_eq_ok.1 ran
  simp only [run_ofTree, Prod.mk.injEq] at found
  obtain ⟨rfl, found⟩ := found
  have got : s.tree.get path = .ok node := by
    cases getting : s.tree.get path <;> simp_all
  obtain ⟨nodeMem, nodePath⟩ := wf.find?_eq_some_iff.1 (get_eq_ok_iff.1 got)
  split at ran
  · rename_i isFile
    simp only [run_updateSchedule, Prod.mk.injEq] at ran
    obtain ⟨rfl, -⟩ := ran
    exact tracks.modified_file wf modifying nodeMem nodePath isFile
  · rename_i notFile
    simp only [run_pure, Prod.mk.injEq] at ran
    obtain ⟨rfl, -⟩ := ran
    refine tracks.modified_of_not_file modifying fun other otherMem atPath => ?_
    rw [wf.eq_of_path_eq otherMem nodeMem (atPath.trans nodePath.symm)]
    simpa using notFile

/-! ## The content an event sets -/

section Recorded

open History

variable {engine : Engine} {lawful : engine.Lawful} {store : Store} {t t₀ : Tables}
  {txOpen : Bool} {history : History} {R : Revnum}
  (holds : store.Holds lawful t txOpen) (sameNodes : t.nodes = t₀.nodes)
  (records : t₀.Records history) (valid : history.Valid)

include holds sameNodes records valid in
/-- Copying what the store had below a source into a childless node just made keeps the account
against changes that have reached no path below the target. -/
theorem deepCopy_contentTracks {st st' : Ingestor} {changesAt : String → List Change}
    (wf : st.tree.WellFormed) (tracks : ContentTracks changesAt st)
    (live : ∀ entry ∈ st.schedule.content, (st.tree.recordOf? entry.1).isSome) {top : LiveNode}
    (topMem : top ∈ st.tree.nodes) (topLeaf : top.children = []) {target : String}
    (topPath : top.path = target) (notRoot : target ≠ Path.root) (nonempty : target ≠ "")
    (unreached : ∀ p, Path.Within target p → p ≠ target → changesAt p = []) {source : NodeId}
    {copyRevision : Revnum} (bounded : copyRevision ≤ Revnum.head)
    (ran : st.run (deepCopy store R (store.nodeCount + 1) target source copyRevision) =
      (st', .ok ())) :
    ContentTracks changesAt st' := by
  obtain ⟨copying, -, -⟩ := deepCopy_mirrors holds sameNodes records valid bounded wf
    topMem topPath topLeaf notRoot nonempty ran
  refine tracks.copy wf live copying fun entry mem => ?_
  have lengthPos : 0 < target.toList.length :=
    List.length_pos_iff.2 fun empty => nonempty (String.toList_inj.1 (by simpa using empty))
  obtain ⟨within, longer⟩ := copyTrace_within _ target source lengthPos notRoot entry mem
  exact unreached _ within fun same => by rw [same] at longer; omega

include holds sameNodes records valid in
/-- Adding the node of an event at its normalized path keeps the account against the events with
this one, when every event before it sorts no later. -/
theorem add_contentTracks {s s' : Ingestor} {events : List (String × Change)} {raw path : String}
    {change : Change} (delta : Delta (current history) R s) (headBound : R ≤ Revnum.head)
    (tracks : ContentTracks (eventsAt events) s) (creates : change.action.creates = true)
    (normalized : Path.normalize raw = .ok path) (sorted : ∀ event ∈ events, event.1 ≤ path)
    (ran : s.run (add store R path change) = (s', .ok ())) :
    ContentTracks (eventsAt (events ++ [(path, change)])) s' := by
  have wf := delta.wellFormed
  have live : ∀ entry ∈ s.schedule.content, (s.tree.recordOf? entry.1).isSome :=
    fun entry mem => (delta.contentLive entry mem).2
  -- Below the path no event was applied yet: every earlier one sorts no later than it.
  have unreached : ∀ p, Path.Within path p → p ≠ path →
      eventsAt (events ++ [(path, change)]) p = [] := by
    intro p within apart
    rw [eventsAt_of_ne (Ne.symm apart)]
    exact eventsAt_eq_nil fun event mem atP =>
      absurd (sorted event mem) (not_le.2 (atP ▸ within.lt (Ne.symm apart)))
  have recorded : s.schedule.Creates (s.schedule.create (NodeId.next s.lastId))
      (NodeId.next s.lastId) := ⟨rfl, rfl, rfl, rfl, rfl⟩
  unfold add at ran
  dsimp only at ran
  split at ran
  · -- A copy: the node is created, then what was below a copied directory is copied below it.
    rename_i copy copyFrom
    rw [run_bind_eq_ok] at ran
    obtain ⟨s₁, source, resolving, ran⟩ := ran
    obtain ⟨src, resolved, rfl⟩ := run_map_eq_ok resolving
    obtain ⟨same, early, -⟩ :=
      run_resolveSource_eq_ok holds sameNodes records valid delta headBound resolved
    subst s₁
    obtain ⟨created, creating, ran⟩ := run_create_eq_ok ran
    have copying := run_setContent_then ran
    simp only [copyFrom] at copying
    have made := tracks.createAt wf live creating creates recorded (NodeId.next s.lastId)
    have madeLive := live_createAt wf live creating recorded
    obtain ⟨parent, name, -, -, split, -, -, rfl⟩ := wf.create_eq_withCreated creating
    rcases run_ite_pure copying with rfl | copyRan
    · exact made
    · exact deepCopy_contentTracks holds sameNodes records valid (wf.create creating) made
        (madeLive _ _) (LiveTree.mem_withCreated.2 (.inl rfl)) rfl rfl
        (LiveTree.ne_root_of_split split) (Path.ne_empty_of_normalize normalized) unreached
        (le_trans early.le headBound) copyRan
  · -- No copy: the node is created, and nothing else.
    rw [run_bind_eq_ok] at ran
    obtain ⟨s₁, source, resolving, ran⟩ := ran
    simp only [run_pure, Prod.mk.injEq, Except.ok.injEq] at resolving
    obtain ⟨rfl, rfl⟩ := resolving
    obtain ⟨created, creating, ran⟩ := run_create_eq_ok ran
    have done := run_setContent_then ran
    simp only [run_pure, Prod.mk.injEq] at done
    rw [← done.1]
    exact tracks.createAt wf live creating creates recorded (NodeId.next s.lastId)

include holds sameNodes records valid in
/-- Each event, applied in path order after the events before it, keeps the account against the
events applied so far. -/
theorem applyChange_contentTracks {s s' : Ingestor} {done : List (String × Change)}
    {raw path : String} {change : Change} (delta : Delta (current history) R s)
    (headBound : R ≤ Revnum.head) (tracks : ContentTracks (eventsAt done) s)
    (sorted : ∀ event ∈ done, event.1 ≤ path) (normalized : Path.normalize raw = .ok path)
    (ran : s.run (applyChange store R path change) = (s', .ok ())) :
    ContentTracks (eventsAt (done ++ [(path, change)])) s' := by
  have wf := delta.wellFormed
  cases creating : change.action.creates with
  | false =>
    unfold applyChange at ran
    split at ran
    · -- At the root only a modification applies, and it does nothing.
      rename_i atRoot
      split at ran
      · rename_i modifying
        simp only [run_pure, Prod.mk.injEq] at ran
        rw [← ran.1]
        exact tracks.modified_of_not_file modifying fun node mem atPath =>
          wf.not_file_of_root mem (atPath.trans atRoot)
      · simp at ran
    · split at ran
      · rename_i modifying
        exact modifyFile_contentTracks wf tracks modifying ran
      · -- A deletion drops nodes, and sets no content.
        rename_i deleting
        have deletes : Keeps (fun s => s.tree.WellFormed ∧ ContentTracks (eventsAt done) s)
            (deleteTree path) :=
          keeps_deleteTree_of_drop (fun s path dropped holds dropping =>
            ⟨holds.1.drop dropping, holds.2.drop holds.1 dropping⟩) path
        exact (deletes s s' () ⟨wf, tracks⟩ ran).2.deleted deleting
      · rename_i adding
        simp [adding, ChangeAction.creates] at creating
      · rename_i replacing
        simp [replacing, ChangeAction.creates] at creating
  | true =>
    have action : change.action = .added ∨ change.action = .replaced := by
      cases isAction : change.action <;> simp_all [ChangeAction.creates]
    -- Dropping a childless node keeps the account and the accounting of the revision.
    have drop : ∀ s path dropped,
        (Delta (current history) R s ∧ ContentTracks (eventsAt done) s) →
        s.tree.drop path = .ok dropped →
        Delta (current history) R
            { s with tree := dropped.1, schedule := s.schedule.afterDrop dropped.2 } ∧
          ContentTracks (eventsAt done)
            { s with tree := dropped.1, schedule := s.schedule.afterDrop dropped.2 } :=
      fun s path dropped holds dropping => ⟨(Delta.stable _ R).drop s path dropped holds.1 dropping,
        holds.2.drop holds.1.wellFormed dropping⟩
    obtain ⟨-, s₁, ⟨delta₁, tracks₁⟩, addRan⟩ := run_applyChange_adding_of
      (keeps_deleteTree_of_drop drop path) ⟨delta, tracks⟩ action ran
    exact add_contentTracks holds sameNodes records valid delta₁ headBound tracks₁ creating
      normalized sorted addRan

include holds sameNodes records valid in
/-- Applying events in path order keeps the account against the events applied so far. -/
theorem forM_contentTracks (headBound : R ≤ Revnum.head) :
    ∀ (events done : List (String × Change)) {s s' : Ingestor},
      (done ++ events).Pairwise (fun a b => a.1 ≤ b.1) →
      (∀ event ∈ events, ∃ raw, Path.normalize raw = .ok event.1) →
      Delta (current history) R s → ContentTracks (eventsAt done) s →
      s.run (events.forM fun event => applyChange store R event.1 event.2) = (s', .ok ()) →
      ContentTracks (eventsAt (done ++ events)) s'
  | [], done, s, s', _, _, _, tracks, ran => by
    simp only [List.forM_eq_forM, List.forM_nil, run_pure, Prod.mk.injEq] at ran
    rw [List.append_nil, ← ran.1]
    exact tracks
  | event :: rest, done, s, s', sorted, normal, delta, tracks, ran => by
    simp only [List.forM_eq_forM, List.forM_cons] at ran
    obtain ⟨s₁, u, first, restRan⟩ := run_bind_eq_ok.1 ran
    have delta₁ := (Delta.stable _ R).within.keeps_applyChange store trivial event.2 s s₁ u delta
      first
    obtain ⟨raw, normalized⟩ := normal event List.mem_cons_self
    have earlier : ∀ before ∈ done, before.1 ≤ event.1 :=
      fun before mem => (List.pairwise_append.1 sorted).2.2 before mem event List.mem_cons_self
    have tracks₁ := applyChange_contentTracks holds sameNodes records valid delta headBound tracks
      earlier normalized first
    have after := forM_contentTracks headBound rest (done ++ [event]) (by simpa using sorted)
      (fun later mem => normal later (List.mem_cons_of_mem _ mem)) delta₁ tracks₁ restRan
    simpa using after

/-- Sorting the events by path keeps the events at each path in order. -/
theorem eventsAt_sortByPath {changeSet : ChangeSet} {normalized : List (String × Change)}
    (pairs : normalized.map (·.2) = changeSet.changes)
    (paths : ∀ entry ∈ normalized, Path.normalize entry.2.path = .ok entry.1) (path : String) :
    eventsAt (sortByPath normalized) path = changeSet.changesAt path := by
  unfold eventsAt ChangeSet.changesAt
  rw [sortByPath_filter, ← pairs, List.filter_map]
  congr 1
  refine List.filter_congr fun entry mem => ?_
  simp [paths entry mem, Except.toOption]

include holds sameNodes records valid in
/-- After a revision applies on top of the committed tree, its schedule holds, for every live file,
the last data the events of the change set at its path set, and for every other node none. -/
theorem apply_contentTracks {s s' : Ingestor} {changeSet : ChangeSet} (wf : s.tree.WellFormed)
    (same : s.tree.Same (current history)) (headBound : changeSet.revision ≤ Revnum.head)
    (applied : s.run (apply store changeSet) = (s', .ok ())) :
    ContentTracks changeSet.changesAt s' := by
  obtain ⟨empty, normalized, pairs, paths, applyRan⟩ := run_apply_eq_ok applied
  simp only [Schedule.isEmpty, Bool.and_eq_true, List.isEmpty_iff] at empty
  obtain ⟨⟨noneOutdated, noneCreated⟩, noContent⟩ := empty
  -- Nothing is set before the first event.
  have begun : Delta s.tree changeSet.revision
      { s with schedule := { s.schedule with revision := some changeSet.revision } } := by
    have started : Delta s.tree changeSet.revision s :=
      Delta.start wf noneCreated noneOutdated noContent
    exact started.reschedule rfl rfl rfl started.contentNodup started.contentLive
  have after := forM_contentTracks holds sameNodes records valid headBound
    (sortByPath normalized) [] (by simpa using sortByPath_sorted normalized)
    (fun event mem => ⟨event.2.path, paths event ((sortByPath_perm normalized).subset mem)⟩)
    (begun.of_same same) (contentTracks_start noContent) applyRan
  rw [List.nil_append] at after
  exact after.relabel fun node _ => (eventsAt_sortByPath pairs paths node.path).symm

end Recorded

end Ingestor

end TreeHistory
