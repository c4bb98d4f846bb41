import Bunting.Origin

/-!
A restart. The run is rebuilt from its genesis state, a checkpoint if there is
one, and the journal: records the checkpoint covers are checked against the
chain, later ones are executed again and have to come out the same. A journal
that is accepted is that of a live run from the same genesis.
-/

namespace Bunting
open Stateful

namespace Origin

structure RunRecovery where
  live : LiveRun
  genesis_sequence : Nat
  replayed_through : Nat
  checkpoint_sequence : Nat
  checkpoint_chain : Digest

namespace RunRecovery

def check_checkpoint_reached (recovery : RunRecovery) : Except OriginError PUnit :=
  refuse (recovery.replayed_through = recovery.checkpoint_sequence ∧ recovery.live.chain ≠ recovery.checkpoint_chain)
    OriginError.InvalidCommit

/-- Where recovery takes up from: the genesis state, or a checkpoint that may be of its run. -/
def resume (genesis_sequence : Nat) (live : LiveRun) : Option (RunState × String) → Except OriginError RunRecovery
  | none => pure ⟨live,genesis_sequence,genesis_sequence,genesis_sequence,live.chain⟩
  | some (state,chain) => do
    refuse (state.run_id ≠ live.state.run_id ∨ state.scenario_hash ≠ live.state.scenario_hash ∨
      state.sequence < genesis_sequence) OriginError.InvalidCommit
    let chain ← parse_hex chain
    pure ⟨{ live with base := state, base_chain := chain, state },genesis_sequence,genesis_sequence,state.sequence,chain⟩

def new (h : Hashing) (genesis : RunState) (checkpoint : Option (RunState × String)) (limits : RunLimits) :
    Except OriginError RunRecovery := do
  let live ← LiveRun.genesis h genesis limits
  let recovery ← resume genesis.sequence live checkpoint
  recovery.check_checkpoint_reached
  pure recovery

/-- A record that the checkpoint covers is checked by fingerprint and chain, and indexed. -/
def cover (h : Hashing) (recovery : RunRecovery) (record : CommandRecord) : Except OriginError RunRecovery := do
  let chain := h.next_chain recovery.live.chain (.of record)
  refuse (hex (h.fingerprint record.input) ≠ record.fingerprint ∨ hex chain ≠ record.chain ∨
    recovery.live.index.contains record.input.command_id) OriginError.InvalidCommit
  let covered := { recovery with
    live := { recovery.live with
      index := recovery.live.index.insert record.input.command_id ⟨h.fingerprint record.input,record.result⟩
      chain }
    replayed_through := record.result.committed_sequence }
  covered.check_checkpoint_reached
  pure covered

/-- Applies the next journal record. A recovery that fails is given up. -/
def replay (h : Hashing) (recovery : RunRecovery) (record : CommandRecord) : Except OriginError RunRecovery := do
  let next ← orElse (to_u64 (recovery.replayed_through + 1)) OriginError.InvalidCommit
  refuse (record.result.committed_sequence ≠ next ∨ record.input.run_id ≠ recovery.live.state.run_id ∨
    record.input.expected_sequence ≠ recovery.replayed_through) OriginError.InvalidCommit
  if record.result.committed_sequence ≤ recovery.checkpoint_sequence then cover h recovery record
  else
    match (LiveRun.execute_admitted h record.input record.admission).run recovery.live with
    | .ok (.Committed produced) live =>
      if produced = record then pure { recovery with live, replayed_through := record.result.committed_sequence }
      else throw .InvalidCommit
    | _ => throw .InvalidCommit

/-- The recovered run, once every journal record has been replayed. -/
def finish (recovery : RunRecovery) : Except OriginError LiveRun := do
  -- The checkpoint must not claim commands the journal does not hold.
  refuse (recovery.replayed_through < recovery.checkpoint_sequence) OriginError.InvalidCommit
  pure recovery.live

def recover (h : Hashing) (genesis : RunState) (checkpoint : Option (RunState × String)) (limits : RunLimits)
    (records : List CommandRecord) : Except OriginError LiveRun := do
  let recovery ← new h genesis checkpoint limits
  let recovery ← records.foldlM (replay h) recovery
  recovery.finish

end RunRecovery

/-! ### The same run -/

namespace LiveRun

/-- Two live runs that differ at most in their checkpoints. -/
structure Same (live other : LiveRun) : Prop where
  state : live.state = other.state
  chain : live.chain = other.chain
  index : live.index = other.index
  limits : live.limits = other.limits
  poisoned : live.poisoned = other.poisoned

section Same
variable {h : Hashing} {live live' other other' : LiveRun} {input : Input} {admission : Option AdmissionRecord}
  {record record' : CommandRecord}

theorem Same.refl (live : LiveRun) : Same live live := ⟨rfl,rfl,rfl,rfl,rfl⟩

theorem Same.symm (same : Same live other) : Same other live :=
  ⟨same.state.symm,same.chain.symm,same.index.symm,same.limits.symm,same.poisoned.symm⟩

theorem Same.trans {third : LiveRun} (first : Same live other) (second : Same other third) : Same live third :=
  ⟨first.state.trans second.state,first.chain.trans second.chain,first.index.trans second.index,
    first.limits.trans second.limits,first.poisoned.trans second.poisoned⟩

variable (commits : Commits h live input admission record live')
include commits

/-- What a run commits does not depend on its checkpoints. -/
theorem Commits.same (same : Same live other) :
    ∃ other', Commits h other input admission record other' ∧ Same live' other' := by
  obtain ⟨serves,run,new,sequence,room,⟨applied,state,made,within,result,events,rfl⟩,about,stamped,admitted,chained⟩ := commits
  obtain ⟨state',chain,base,base_chain,tail,index,limits,poisoned⟩ := other
  obtain ⟨rfl,rfl,rfl,rfl,rfl⟩ := same
  exact ⟨_,⟨serves,run,new,sequence,room,⟨applied,state,made,within,result,events,rfl⟩,about,stamped,admitted,chained⟩,
    rfl,rfl,rfl,rfl,rfl⟩

theorem Commits.unique (others : Commits h live input admission record' other') : record = record' ∧ live' = other' := by
  have ran := execute_committed.mpr commits
  rw [execute_committed.mpr others] at ran
  cases ran
  exact ⟨rfl,rfl⟩

theorem Commits.sequences :
    live'.state.sequence = live.state.sequence + 1 ∧ record.result.committed_sequence = live.state.sequence + 1 ∧
      record.input.expected_sequence = live.state.sequence ∧
      to_u64 (live.state.sequence + 1) = some (live.state.sequence + 1) ∧ live'.state.identity = live.state.identity ∧
      live'.chain = h.next_chain live.chain (.of record) := by
  obtain ⟨applied,state,made,_,result,_,rfl⟩ := commits.made
  have next := Input.step_sequence made
  refine ⟨next,?_,?_,Input.step_preflight made,Input.step_identity made,rfl⟩
  · rw [result]
    exact next
  · rw [commits.about,commits.sequence]

end Same

/-! ### Histories -/

/-- The records were committed one after another, starting from a run. -/
inductive Recorded (h : Hashing) (start : LiveRun) : List CommandRecord → LiveRun → Prop
  | nil : Recorded h start [] start
  | concat {records : List CommandRecord} {record : CommandRecord} {live live' : LiveRun} (before : Recorded h start records live)
      (commits : Commits h live record.input record.admission record live') : Recorded h start (records ++ [record]) live'

section Recorded
variable {h : Hashing} {start live live' : LiveRun} {records front back : List CommandRecord} {record : CommandRecord}

theorem Recorded.inv (recorded : Recorded h start (records ++ [record]) live') :
    ∃ live, Recorded h start records live ∧ Commits h live record.input record.admission record live' := by
  generalize whole : records ++ [record] = all at recorded
  cases recorded with
  | nil => simp at whole
  | concat before commits =>
    obtain ⟨rfl,last⟩ := List.append_inj' whole rfl
    cases last
    exact ⟨_,before,commits⟩

theorem Recorded.inv_nil (recorded : Recorded h start [] live) : live = start := by
  generalize whole : ([] : List CommandRecord) = all at recorded
  cases recorded with
  | nil => rfl
  | concat => simp at whole

theorem Recorded.unique (recorded : Recorded h start records live) (again : Recorded h start records live') : live = live' := by
  induction recorded generalizing live' with
  | nil => exact again.inv_nil.symm
  | concat before commits ih =>
    obtain ⟨mid,before',commits'⟩ := again.inv
    obtain rfl := ih before'
    exact (commits.unique commits').2

theorem Recorded.prior (recorded : Recorded h start (front ++ back) live) : ∃ mid, Recorded h start front mid := by
  induction back using List.reverseRecOn generalizing live with
  | nil => exact ⟨live,by simpa using recorded⟩
  | append_singleton back record ih =>
    rw [← List.append_assoc] at recorded
    obtain ⟨mid,before,_⟩ := recorded.inv
    exact ih before

/-- Where a history is: its sequence number counts its records, and its chain folds them. -/
theorem Recorded.position (recorded : Recorded h start records live) :
    live.state.sequence = start.state.sequence + records.length ∧ live.state.identity = start.state.identity ∧
      live.chain = chain_through h start.chain records := by
  induction recorded with
  | nil => exact ⟨rfl,rfl,rfl⟩
  | concat before commits ih =>
    obtain ⟨sequence,identity,chain⟩ := ih
    obtain ⟨next,_,_,_,same,chained⟩ := commits.sequences
    refine ⟨?_,same.trans identity,?_⟩
    · rw [next,sequence,List.length_append]
      rfl
    · rw [chained,chain_through_concat,chain]

theorem Recorded.runs (recorded : Recorded h start records live) : ∃ history, Runs start.state history live.state := by
  induction recorded with
  | nil => exact ⟨[],.nil⟩
  | concat before commits ih =>
    obtain ⟨history,runs⟩ := ih
    obtain ⟨_,_,made,_,_,_,rfl⟩ := commits.made
    exact ⟨_,runs.step made⟩

/-- A record of a history has the sequence number of its place, and the chain value up to it. -/
theorem Recorded.at (recorded : Recorded h start (front ++ record :: back) live) :
    record.result.committed_sequence = start.state.sequence + front.length + 1 ∧
      record.chain = hex (chain_through h start.chain (front ++ [record])) := by
  rw [List.append_cons] at recorded
  obtain ⟨mid,recorded⟩ := recorded.prior
  obtain ⟨before,earlier,commits⟩ := recorded.inv
  refine ⟨?_,?_⟩
  · rw [commits.sequences.2.1,earlier.position.1]
  · rw [commits.chained,recorded.position.2.2]

/-- A live run has the state of its records, and its checkpoint that of some of the first. -/
structure Follows (h : Hashing) (start live : LiveRun) (records : List CommandRecord) : Prop where
  journaled : Journaled h start live records
  whole : ∃ fresh, Recorded h start records fresh ∧ Same live fresh
  based : ∃ covered later mid, records = covered ++ later ∧ Recorded h start covered mid ∧ mid.state = live.base ∧
    mid.chain = live.base_chain

theorem Follows.opened {state : RunState} {limits : RunLimits} (opened : genesis h state limits = .ok start) :
    Follows h start start [] := by
  have journaled := Journaled.opened opened
  simp only [genesis,returned] at opened
  obtain ⟨_,_,rfl⟩ := opened
  exact ⟨journaled,⟨_,.nil,.refl _⟩,[],[],_,rfl,.nil,rfl,rfl⟩

theorem Follows.reachable {scenario : ScenarioDefinition} (follows : Follows h start live records)
    (starts : Starts scenario start.state) : Reachable scenario live.state := by
  obtain ⟨fresh,recorded,same⟩ := follows.whole
  obtain ⟨history,runs⟩ := recorded.runs
  exact ⟨start.state,history,starts,same.state ▸ runs⟩

theorem Follows.called (follows : Follows h start live records) (call : Call) :
    Follows h start (LiveRun.called h live call).1 (records ++ (LiveRun.called h live call).2) := by
  have journaled := follows.journaled.called call
  obtain ⟨fresh,recorded,same⟩ := follows.whole
  obtain ⟨covered,later,mid,rfl,before,state,chain⟩ := follows.based
  rcases called_cases follows.journaled call with ⟨record,live',called,commits⟩ | called | called
  · rw [called] at journaled ⊢
    obtain ⟨fresh',commits',same'⟩ := commits.same same
    obtain ⟨_,_,_,_,_,_,rfl⟩ := commits.made
    exact ⟨journaled,⟨fresh',recorded.concat commits',same'⟩,covered,later ++ [record],mid,by simp,before,state,chain⟩
  · rw [called,List.append_nil]
    exact follows
  · rw [called,List.append_nil] at journaled ⊢
    exact ⟨journaled,⟨fresh,recorded,{ same with }⟩,covered ++ later,[],fresh,
      by simp,recorded,same.state.symm,same.chain.symm⟩

theorem Follows.serve (opened : Follows h start start []) (calls : List Call) :
    Follows h start (LiveRun.serve h calls start).1 (LiveRun.serve h calls start).2 := by
  unfold LiveRun.serve
  induction calls using List.reverseRecOn with
  | nil => exact opened
  | append_singleton calls call ih =>
    rw [List.foldl_append]
    exact ih.called call

theorem serve_extends (h : Hashing) (start : LiveRun) (before after : List Call) :
    (LiveRun.serve h before start).2 <+: (LiveRun.serve h (before ++ after) start).2 := by
  unfold LiveRun.serve
  rw [List.foldl_append]
  induction after using List.reverseRecOn with
  | nil => exact List.prefix_rfl
  | append_singleton calls call ih =>
    rw [List.foldl_append]
    exact ih.trans (List.prefix_append ..)

end Recorded
end LiveRun

/-! ### A journal that recovers -/

namespace RunRecovery
open LiveRun

/-- Recovery from the checkpoint of `mid`, once the history has got to `live` and the checkpoint covers it. -/
def covering (start mid live : LiveRun) : RunRecovery :=
  ⟨{ live with state := mid.state, base := mid.state, base_chain := mid.chain, tail := start.tail },start.state.sequence,
    live.state.sequence,mid.state.sequence,mid.chain⟩

/-- Recovery has replayed a history, past its checkpoint. -/
structure Caught (recovery : RunRecovery) (live : LiveRun) (floor : Nat) : Prop where
  through : recovery.replayed_through = live.state.sequence
  floor : recovery.checkpoint_sequence = floor
  same : Same recovery.live live

section Recovery
variable {h : Hashing} {genesis : RunState} {limits : RunLimits} {start mid live live' : LiveRun}
  {records covered front back : List CommandRecord} {record : CommandRecord} {recovery recovery' : RunRecovery} {floor : Nat}
  {others : List CommandRecord}

theorem new_covering (opened : LiveRun.genesis h genesis limits = .ok start) (recorded : Recorded h start covered mid) :
    new h genesis (some (mid.state,hex mid.chain)) limits = .ok (covering start mid start) := by
  have genesis_eq := genesis_state opened
  obtain ⟨sequence,identity,_⟩ := recorded.position
  obtain ⟨run_id,scenario⟩ := Prod.mk.inj identity
  have resumed : resume genesis.sequence start (some (mid.state,hex mid.chain)) = .ok (covering start mid start) := by
    simp only [resume,except_bind_eq_ok,except_refuse_eq_ok,except_pure_eq_ok,parse_hex_hex]
    refine ⟨⟨⟩,?_,mid.chain,rfl,by rw [← genesis_eq]; rfl⟩
    rw [← genesis_eq,run_id,scenario]
    simp [sequence]
  have reached : (covering start mid start).check_checkpoint_reached = .ok ⟨⟩ := by
    rw [check_checkpoint_reached,except_refuse_eq_ok]
    rintro ⟨reached,other⟩
    have reached : start.state.sequence = mid.state.sequence := reached
    have none : covered = [] := List.eq_nil_of_length_eq_zero (by omega)
    subst none
    obtain rfl := recorded.inv_nil
    exact other rfl
  simp only [new,except_bind_eq_ok,except_pure_eq_ok]
  exact ⟨start,opened,_,resumed,⟨⟩,reached,rfl⟩

/-- A restart without a checkpoint is one from the genesis state. -/
theorem new_none (opened : LiveRun.genesis h genesis limits = .ok start) :
    new h genesis none limits = .ok (covering start start start) := by
  have made := opened
  simp only [LiveRun.genesis,returned] at made
  obtain ⟨chain,_,rfl⟩ := made
  simp only [new,except_bind_eq_ok,except_pure_eq_ok]
  exact ⟨_,opened,_,rfl,⟨⟩,by rw [check_checkpoint_reached,except_refuse_eq_ok]; exact fun other => other.2 rfl,rfl⟩

theorem replay_covered (before : Recorded h start front live) (whole : Recorded h start (front ++ record :: back) mid)
    (commits : Commits h live record.input record.admission record live') :
    replay h (covering start mid live) record = .ok (covering start mid live') := by
  obtain ⟨next,committed,expected,fits,_,chained⟩ := commits.sequences
  obtain ⟨sequence,identity,_⟩ := before.position
  obtain ⟨sequence',identity',_⟩ := whole.position
  have run_id : live.state.run_id = mid.state.run_id := congrArg Prod.fst (identity.trans identity'.symm)
  have through : record.result.committed_sequence ≤ mid.state.sequence := by
    rw [committed,sequence,sequence',List.length_append,List.length_cons]
    omega
  have result : cover h (covering start mid live) record = .ok (covering start mid live') := by
    obtain ⟨_,_,_,_,_,_,made⟩ := commits.made
    have reached : (covering start mid live').check_checkpoint_reached = .ok ⟨⟩ := by
      rw [check_checkpoint_reached,except_refuse_eq_ok]
      rintro ⟨reached,other⟩
      have reached : live'.state.sequence = mid.state.sequence := reached
      have none : back = [] := List.eq_nil_of_length_eq_zero (by
        rw [next,sequence,sequence',List.length_append,List.length_cons] at reached
        omega)
      subst none
      have same := congrArg LiveRun.chain ((before.concat commits).unique whole)
      exact other same
    have moved : ({ covering start mid live with
        live := { (covering start mid live).live with
          index := live.index.insert record.input.command_id ⟨h.fingerprint record.input,record.result⟩
          chain := h.next_chain live.chain (.of record) }
        replayed_through := record.result.committed_sequence } : RunRecovery) = covering start mid live' := by
      rw [committed,← next,made]
      rfl
    simp only [cover,except_bind_eq_ok,except_refuse_eq_ok,except_pure_eq_ok]
    refine ⟨⟨⟩,?_,⟨⟩,?_,moved⟩
    · rintro (other | other | known)
      · exact other commits.stamped.symm
      · exact other (by rw [commits.chained,chained]; rfl)
      · have new : live.index.contains record.input.command_id = false := OrdMap.contains_eq_false_iff.mpr commits.new
        exact Bool.false_ne_true (new.symm.trans known)
    · exact moved ▸ reached
  simp only [replay,except_bind_eq_ok,except_orElse_eq_ok,except_refuse_eq_ok]
  refine ⟨_,fits,⟨⟩,?_,?_⟩
  · rintro (other | other | other)
    · exact other committed
    · exact other (commits.run.trans run_id)
    · exact other expected
  · exact (if_pos through).trans result

theorem replay_all_covered (recorded : Recorded h start covered mid) (before : Recorded h start front live)
    (inside : front <+: covered) : front.foldlM (replay h) (covering start mid start) = .ok (covering start mid live) := by
  induction before with
  | nil => rfl
  | concat before commits ih =>
    obtain ⟨back,rfl⟩ := inside
    refine except_foldlM_concat_eq_ok.mpr ⟨_,ih ⟨_,(List.append_assoc ..).symm⟩,?_⟩
    rw [List.append_assoc] at recorded
    exact replay_covered before recorded commits

theorem replay_commits (caught : Caught recovery live floor) (past : floor ≤ live.state.sequence)
    (commits : Commits h live record.input record.admission record live') :
    ∃ recovery', replay h recovery record = .ok recovery' ∧ Caught recovery' live' floor := by
  obtain ⟨next,committed,expected,fits,_,_⟩ := commits.sequences
  obtain ⟨other,again,same⟩ := commits.same caught.same.symm
  refine ⟨{ recovery with live := other, replayed_through := record.result.committed_sequence },?_,
    committed.trans next.symm,caught.floor,same.symm⟩
  simp only [replay,except_bind_eq_ok,except_orElse_eq_ok,except_refuse_eq_ok]
  refine ⟨live.state.sequence + 1,by rw [caught.through,fits],⟨⟩,?_,?_⟩
  · rintro (other | other | other)
    · exact other committed
    · exact other (by rw [commits.run,caught.same.state])
    · exact other (expected.trans caught.through.symm)
  · rw [if_neg (by rw [committed,caught.floor]; omega),execute_committed.mpr again]
    exact if_pos rfl

theorem commits_of_replay (caught : Caught recovery live floor) (past : floor ≤ live.state.sequence)
    (ran : replay h recovery record = .ok recovery') :
    ∃ live', Commits h live record.input record.admission record live' ∧ Caught recovery' live' floor := by
  simp only [replay,returned] at ran
  obtain ⟨next,fits,checked,ran⟩ := ran
  have next_eq := to_u64_some fits
  simp only [not_or,not_not] at checked
  rw [if_neg (by rw [checked.1,next_eq,caught.through,caught.floor]; omega)] at ran
  split at ran
  · next produced other made =>
    split_ifs at ran with same
    · subst same
      obtain ⟨live',commits,alike⟩ := (execute_committed.mp made).same caught.same
      cases except_pure_eq_ok.mp ran
      exact ⟨live',commits,commits.sequences.2.1.trans commits.sequences.1.symm,caught.floor,alike⟩
  · cases ran

/-- The records of a history, from any checkpoint on the way, recover it. -/
theorem recover_recorded (opened : LiveRun.genesis h genesis limits = .ok start) (recorded : Recorded h start covered mid)
    (whole : Recorded h start (covered ++ back) live) :
    ∃ recovered, recover h genesis (some (mid.state,hex mid.chain)) limits (covered ++ back) = .ok recovered ∧
      Same recovered live := by
  have later : ∃ recovery, (covered ++ back).foldlM (replay h) (covering start mid start) = .ok recovery ∧
      Caught recovery live mid.state.sequence := by
    induction back using List.reverseRecOn generalizing live with
    | nil =>
      rw [List.append_nil] at whole ⊢
      obtain rfl := recorded.unique whole
      exact ⟨_,replay_all_covered recorded recorded List.prefix_rfl,rfl,rfl,rfl,rfl,rfl,rfl,rfl⟩
    | append_singleton back record ih =>
      rw [← List.append_assoc] at whole ⊢
      obtain ⟨earlier,before,commits⟩ := whole.inv
      obtain ⟨recovery,ran,caught⟩ := ih before
      have past : mid.state.sequence ≤ earlier.state.sequence := by
        rw [recorded.position.1,before.position.1,List.length_append]
        omega
      obtain ⟨recovery',next,caught'⟩ := replay_commits caught past commits
      exact ⟨recovery',except_foldlM_concat_eq_ok.mpr ⟨_,ran,next⟩,caught'⟩
  obtain ⟨recovery,ran,caught⟩ := later
  refine ⟨recovery.live,?_,caught.same⟩
  simp only [recover,finish,except_bind_eq_ok,except_refuse_eq_ok,except_pure_eq_ok]
  refine ⟨_,new_covering opened recorded,recovery,ran,⟨⟩,?_,rfl⟩
  rw [caught.through,caught.floor,recorded.position.1,whole.position.1,List.length_append]
  omega

/-! ### A journal that was tampered with -/

/-- What the chain hashes along records: each with the chain value before it. -/
def hashed (h : Hashing) (first : Digest) : List CommandRecord → List (Digest × Chained)
  | [] => []
  | record :: records => (first,.of record) :: hashed h (h.next_chain first (.of record)) records

variable {first : Digest}

theorem mem_hashed {x : Digest × Chained} : x ∈ hashed h first records ↔
    ∃ front record back, records = front ++ record :: back ∧ x = (chain_through h first front,.of record) := by
  induction records generalizing first with
  | nil => simp [hashed]
  | cons record records ih =>
    rw [hashed,List.mem_cons,ih]
    constructor
    · rintro (rfl | ⟨front,other,back,rfl,rfl⟩)
      · exact ⟨[],record,records,rfl,rfl⟩
      · exact ⟨record :: front,other,back,rfl,rfl⟩
    · rintro ⟨front,other,back,split,rfl⟩
      cases front with
      | nil =>
        cases split
        exact .inl rfl
      | cons first front =>
        cases split
        exact .inr ⟨front,other,back,rfl,rfl⟩

/-- Nothing that is hashed along two journals collides. -/
def CollisionFree (h : Hashing) (first : Digest) (records others : List CommandRecord) : Prop :=
  ∀ x ∈ hashed h first records, ∀ y ∈ hashed h first others, h.next_chain x.1 x.2 = h.next_chain y.1 y.2 → x = y

instance (first : Digest) (records others : List CommandRecord) : Decidable (CollisionFree h first records others) :=
  inferInstanceAs (Decidable (∀ x ∈ _, ∀ y ∈ _, _ → _))

def WellChained (h : Hashing) (first : Digest) (records : List CommandRecord) : Prop :=
  ∀ front record back, records = front ++ record :: back → record.chain = hex (chain_through h first (front ++ [record]))

theorem WellChained.prior (chained : WellChained h first (records ++ [record])) :
    WellChained h first records := by
  rintro front other back rfl
  exact chained front other (back ++ [record]) (by simp)

theorem hashed_mono (inside : front <+: records) : hashed h first front ⊆ hashed h first records := by
  obtain ⟨later,rfl⟩ := inside
  intro x member
  obtain ⟨front,record,back,rfl,rfl⟩ := mem_hashed.mp member
  exact mem_hashed.mpr ⟨front,record,back ++ later,by simp,rfl⟩

theorem CollisionFree.prefixes {front' : List CommandRecord} (free : CollisionFree h first records others)
    (inside : front <+: records) (inside' : front' <+: others) : CollisionFree h first front front' :=
  fun x member y member' => free x (hashed_mono inside member) y (hashed_mono inside' member')

/-- A chain value is that of one journal of its length only. -/
theorem chain_through_injective (free : CollisionFree h first records others)
    (length : records.length = others.length) (chained : WellChained h first records) (chained' : WellChained h first others)
    (same : chain_through h first records = chain_through h first others) : records = others := by
  induction records using List.reverseRecOn generalizing others with
  | nil => exact (List.eq_nil_of_length_eq_zero length.symm).symm
  | append_singleton records record ih =>
    rcases List.eq_nil_or_concat others with rfl | ⟨others,other,rfl⟩
    · simp at length
    rw [List.concat_eq_append] at *
    have last : record.chain = other.chain := by
      rw [chained records record [] rfl,chained' others other [] rfl,same]
    rw [chain_through_concat,chain_through_concat] at same
    have pair := free _ (mem_hashed.mpr ⟨records,record,[],rfl,rfl⟩) _ (mem_hashed.mpr ⟨others,other,[],rfl,rfl⟩) same
    obtain ⟨before,fields⟩ := Prod.mk.inj pair
    have earlier := ih (free.prefixes (List.prefix_append ..) (List.prefix_append ..)) (by simpa using length)
      chained.prior chained'.prior before
    have equal : record = other := by
      obtain ⟨_,_,_,_,_,_⟩ := record
      obtain ⟨_,_,_,_,_,_⟩ := other
      cases fields
      cases last
      rfl
    rw [earlier,equal]

theorem Recorded.wellChained (recorded : Recorded h start records live) : WellChained h start.chain records := by
  rintro front record back rfl
  exact recorded.at.2

/-- Recovery has taken records that its checkpoint covers: it checked their places and their chain. -/
structure Covered (h : Hashing) (start mid : LiveRun) (records : List CommandRecord) (recovery : RunRecovery) : Prop where
  through : recovery.replayed_through = start.state.sequence + records.length
  floor : recovery.checkpoint_sequence = mid.state.sequence
  checkpoint : recovery.checkpoint_chain = mid.chain
  chain : recovery.live.chain = chain_through h start.chain records
  chained : WellChained h start.chain records
  reached : start.state.sequence + records.length = mid.state.sequence → chain_through h start.chain records = mid.chain

theorem Covered.none (recorded : Recorded h start covered mid) : Covered h start mid [] (covering start mid start) := by
  refine ⟨rfl,rfl,rfl,rfl,by simp [WellChained],fun reached => ?_⟩
  rw [recorded.position.1] at reached
  have none : covered = [] := List.eq_nil_of_length_eq_zero (by rw [List.length_nil] at reached; omega)
  subst none
  rw [recorded.inv_nil]
  rfl

theorem Covered.replay (before : Covered h start mid records recovery)
    (inside : start.state.sequence + records.length < mid.state.sequence)
    (ran : RunRecovery.replay h recovery record = .ok recovery') : Covered h start mid (records ++ [record]) recovery' := by
  simp only [RunRecovery.replay,returned] at ran
  obtain ⟨next,fits,checked,ran⟩ := ran
  simp only [not_or,not_not] at checked
  have committed : record.result.committed_sequence = start.state.sequence + records.length + 1 := by
    rw [checked.1,to_u64_some fits,before.through]
  rw [if_pos (by rw [committed,before.floor]; omega)] at ran
  simp only [cover,check_checkpoint_reached,returned] at ran
  obtain ⟨stamped,reached,rfl⟩ := ran
  simp only [not_or,not_not,not_and] at stamped reached
  rw [before.chain] at stamped reached
  refine ⟨by rw [List.length_append,committed]; rfl,before.floor,before.checkpoint,?_,?_,?_⟩
  · rw [before.chain,chain_through_concat]
  · intro front other back split
    rcases List.eq_nil_or_concat back with rfl | ⟨back,last,rfl⟩
    · obtain ⟨rfl,same⟩ := List.append_inj' split rfl
      cases same
      rw [chain_through_concat]
      exact stamped.2.1.symm
    · refine before.chained front other back ?_
      rw [List.concat_eq_append,← List.cons_append,← List.append_assoc] at split
      exact (List.append_inj' split rfl).1
  · intro complete
    rw [chain_through_concat,reached (by rw [committed,before.floor,← complete,List.length_append]; rfl),before.checkpoint]

theorem covered_of_replay (recorded : Recorded h start covered mid) (inside : records.length ≤ covered.length)
    (ran : records.foldlM (replay h) (covering start mid start) = .ok recovery) : Covered h start mid records recovery := by
  induction records using List.reverseRecOn generalizing recovery with
  | nil =>
    cases except_pure_eq_ok.mp ran
    exact Covered.none recorded
  | append_singleton records record ih =>
    obtain ⟨earlier,before,ran⟩ := except_foldlM_concat_eq_ok.mp ran
    rw [List.length_append,List.length_singleton] at inside
    refine (ih (by omega) before).replay ?_ ran
    rw [recorded.position.1]
    omega

/-- A journal that recovers is one that a live run from the same genesis commits, and has every record that the
    checkpoint covers. -/
theorem recorded_of_recover {recovered : LiveRun} (opened : LiveRun.genesis h genesis limits = .ok start)
    (recorded : Recorded h start covered mid) (free : CollisionFree h start.chain covered (records.take covered.length))
    (ran : recover h genesis (some (mid.state,hex mid.chain)) limits records = .ok recovered) :
    covered <+: records ∧ ∃ live, Recorded h start records live ∧ Same recovered live := by
  simp only [recover,finish,new_covering opened recorded,returned,Except.ok.injEq] at ran
  obtain ⟨recovery,ran,complete,rfl⟩ := ran
  have long : covered.length ≤ records.length := by
    by_contra short
    have covers := covered_of_replay recorded (by omega) ran
    rw [covers.through,covers.floor,recorded.position.1] at complete
    omega
  obtain ⟨front,later,rfl,length⟩ : ∃ front later, records = front ++ later ∧ front.length = covered.length :=
    ⟨records.take covered.length,records.drop covered.length,(List.take_append_drop ..).symm,by simpa using long⟩
  rw [← length,List.take_left] at free
  rw [List.foldlM_append,except_bind_eq_ok] at ran
  obtain ⟨reached,first,ran⟩ := ran
  have covers := covered_of_replay recorded length.le first
  have same : covered = front := by
    refine chain_through_injective free length.symm (Recorded.wellChained recorded) covers.chained ?_
    rw [covers.reached (by rw [length,recorded.position.1]),recorded.position.2.2]
  subst same
  refine ⟨List.prefix_append ..,?_⟩
  rw [replay_all_covered recorded recorded List.prefix_rfl] at first
  cases first
  have caught : ∃ live, Recorded h start (covered ++ later) live ∧ Caught recovery live mid.state.sequence := by
    clear complete long free
    induction later using List.reverseRecOn generalizing recovery with
    | nil =>
      cases except_pure_eq_ok.mp ran
      exact ⟨mid,by simpa using recorded,rfl,rfl,rfl,rfl,rfl,rfl,rfl⟩
    | append_singleton later record ih =>
      obtain ⟨earlier,before,ran⟩ := except_foldlM_concat_eq_ok.mp ran
      obtain ⟨live,history,caught⟩ := ih _ before
      have past : mid.state.sequence ≤ live.state.sequence := by
        rw [recorded.position.1,history.position.1,List.length_append]
        omega
      obtain ⟨live',commits,caught'⟩ := commits_of_replay caught past ran
      rw [← List.append_assoc]
      exact ⟨live',history.concat commits,caught'⟩
  obtain ⟨live,history,caught⟩ := caught
  exact ⟨live,history,caught.same⟩

theorem exists_parting {α : Type} (xs ys : List α) : ∃ kept rest others, xs = kept ++ rest ∧ ys = kept ++ others ∧
    (∀ front, front <+: xs → front <+: ys → front.length ≤ kept.length) ∧
    ∀ x ∈ rest.head?, ∀ y ∈ others.head?, x ≠ y := by
  induction xs generalizing ys with
  | nil => exact ⟨[],[],ys,rfl,rfl,fun front inside _ => by simp [List.prefix_nil.mp inside],by simp⟩
  | cons x xs ih =>
    cases ys with
    | nil => exact ⟨[],x :: xs,[],rfl,rfl,fun front _ inside => by simp [List.prefix_nil.mp inside],by simp⟩
    | cons y ys =>
      by_cases same : x = y
      · subst same
        obtain ⟨kept,rest,others,rfl,rfl,longest,heads⟩ := ih ys
        refine ⟨x :: kept,rest,others,rfl,rfl,fun front left right => ?_,heads⟩
        cases front with
        | nil => simp
        | cons z front => simpa using longest front (List.cons_prefix_cons.mp left).2 (List.cons_prefix_cons.mp right).2
      · refine ⟨[],x :: xs,y :: ys,rfl,rfl,fun front left right => ?_,by simpa using same⟩
        cases front with
        | nil => simp
        | cons z front => exact (same ((List.cons_prefix_cons.mp left).1.symm.trans (List.cons_prefix_cons.mp right).1)).elim

/-- Where two journals of one genesis part, the inputs part: after that no record of one is in the other. -/
theorem Recorded.part {journal : List CommandRecord} (whole : Recorded h start records live)
    (other : Recorded h start journal live') (free : CollisionFree h start.chain records journal) :
    ∃ kept forged rest, journal = kept ++ forged ∧ records = kept ++ rest ∧
      (∀ front, front <+: journal → front <+: records → front.length ≤ kept.length) ∧
      (∀ record ∈ forged, record ∉ records) ∧
      ∀ record ∈ forged.head?, ∀ original ∈ rest.head?,
        (record.input,record.admission) ≠ (original.input,original.admission) := by
  obtain ⟨kept,forged,rest,rfl,rfl,longest,heads⟩ := exists_parting journal records
  refine ⟨kept,forged,rest,rfl,rfl,longest,?_,?_⟩
  · intro record inside member
    obtain ⟨a,b,rfl⟩ := List.mem_iff_append.mp inside
    obtain ⟨c,d,split⟩ := List.mem_iff_append.mp member
    rw [split] at whole free longest
    rw [← List.append_assoc] at other free longest
    -- The sequence number fixes the place, and the chain value everything before it.
    have length : c.length = (kept ++ a).length := by
      have here := whole.at.1
      rw [other.at.1] at here
      omega
    have chain : chain_through h start.chain (c ++ [record]) = chain_through h start.chain (kept ++ a ++ [record]) :=
      hex_injective (whole.at.2.symm.trans other.at.2)
    have inside : c ++ [record] <+: c ++ record :: d := ⟨d,by simp⟩
    have inside' : kept ++ a ++ [record] <+: kept ++ a ++ record :: b := ⟨b,by simp⟩
    have front {records front : List CommandRecord} {live : LiveRun} (recorded : Recorded h start records live)
        (inside : front <+: records) : WellChained h start.chain front := by
      obtain ⟨back,rfl⟩ := inside
      exact Recorded.wellChained recorded.prior.choose_spec
    have same := chain_through_injective (free.prefixes inside inside') (by simp only [List.length_append] at length ⊢; omega)
      (front whole inside) (front other inside') chain
    have short := longest _ inside' (same ▸ inside)
    simp at short
  · intro record first original second same
    obtain ⟨forged,rfl⟩ : ∃ l, forged = record :: l := ⟨_,(List.cons_head?_tail first).symm⟩
    obtain ⟨rest,rfl⟩ : ∃ l, rest = original :: l := ⟨_,(List.cons_head?_tail second).symm⟩
    rw [List.append_cons] at whole other
    obtain ⟨_,whole⟩ := whole.prior
    obtain ⟨_,other⟩ := other.prior
    obtain ⟨live,before,commits⟩ := whole.inv
    obtain ⟨live',before',commits'⟩ := other.inv
    obtain rfl := before.unique before'
    obtain ⟨input,admission⟩ := Prod.mk.inj same
    rw [input,admission] at commits'
    exact heads record rfl original rfl (commits'.unique commits).1

/-- A restart from the journal of a live run, from genesis or from any checkpoint it took, gives its state, chain and
    index. A journal that drops, repeats or moves records is refused, unless it only lacks some of the last, past the
    checkpoint. A journal that is accepted is one that a live run commits, and recovers that run; it has the same records
    up to some place at or past the checkpoint, another input or admission there, and none of the original records after
    it. -/
theorem recovery_reproduces_the_run (h : Hashing) (genesis : RunState) (limits : RunLimits) (start : LiveRun)
    (opened : LiveRun.genesis h genesis limits = .ok start) (before after : List LiveRun.Call)
    (checkpoint : Option (RunState × String))
    (taken : ∀ c ∈ checkpoint, c = (LiveRun.serve h before start).1.checkpoint_state) (live : LiveRun)
    (records : List CommandRecord) (served : LiveRun.serve h (before ++ after) start = (live,records)) :
    (∃ recovered, recover h genesis checkpoint limits records = .ok recovered ∧ recovered.state = live.state ∧
      recovered.chain = live.chain ∧ recovered.index = live.index) ∧
    ∀ journal, CollisionFree h start.chain records journal →
      ((∀ record ∈ journal, record ∈ records) →
        (¬ journal <+: records ∨ ∃ c ∈ checkpoint, genesis.sequence + journal.length < c.1.sequence) →
        ∃ e, recover h genesis checkpoint limits journal = .error e) ∧
      ∀ recovered, recover h genesis checkpoint limits journal = .ok recovered →
        (∃ last, Recorded h start journal last ∧ Same recovered last) ∧
        ∃ kept forged rest, journal = kept ++ forged ∧ records = kept ++ rest ∧
          (∀ c ∈ checkpoint, c.1.sequence ≤ genesis.sequence + kept.length) ∧
          (∀ record ∈ forged, record ∉ records) ∧
          ∀ record ∈ forged.head?, ∀ original ∈ rest.head?,
            (record.input,record.admission) ≠ (original.input,original.admission) := by
  have genesis_eq := genesis_state opened
  -- A restart without a checkpoint is one from the genesis state.
  obtain ⟨covered,later,mid,split,recorded,same,bound⟩ : ∃ covered later mid, records = covered ++ later ∧
      Recorded h start covered mid ∧
      (∀ journal, recover h genesis checkpoint limits journal =
        recover h genesis (some (mid.state,hex mid.chain)) limits journal) ∧
      ∀ c ∈ checkpoint, c.1 = mid.state := by
    cases checkpoint with
    | none =>
      refine ⟨[],records,start,rfl,.nil,fun journal => ?_,by simp⟩
      rw [recover,recover,new_none opened,new_covering opened .nil]
    | some c =>
      obtain ⟨covered,later,mid,split,recorded,state,chain⟩ := ((Follows.opened opened).serve before).based
      obtain ⟨more,extended⟩ := serve_extends h start before after
      rw [served] at extended
      obtain rfl := taken c rfl
      refine ⟨covered,later ++ more,mid,?_,recorded,fun journal => ?_,?_⟩
      · rw [split,List.append_assoc] at extended
        exact extended.symm
      · rw [checkpoint_state,state,chain]
      · simp [checkpoint_state,state]
  have follows := (Follows.opened opened).serve (before ++ after)
  rw [served] at follows
  obtain ⟨fresh,whole,alike⟩ := follows.whole
  -- What an accepted journal is also says which journals are refused.
  refine ⟨?_,fun journal free => (and_iff_right_of_imp fun accepted own lacking => ?_).mpr fun recovered ran => ?_⟩
  · rw [same]
    subst split
    obtain ⟨recovered,ran,as_fresh⟩ := recover_recorded opened recorded whole
    have result := as_fresh.trans alike.symm
    exact ⟨recovered,ran,result.state,result.chain,result.index⟩
  · cases ran : recover h genesis checkpoint limits journal with
    | error e => exact ⟨e,rfl⟩
    | ok recovered =>
      obtain ⟨_,kept,forged,rest,rfl,rfl,reached,forgery,_⟩ := accepted recovered ran
      have none : forged = [] := List.eq_nil_iff_forall_not_mem.mpr fun record member =>
        forgery record member (own record (List.mem_append_right _ member))
      subst none
      rw [List.append_nil] at lacking
      rcases lacking with other | ⟨c,taken,short⟩
      · exact (other (List.prefix_append ..)).elim
      · have := reached c taken
        omega
  · rw [same] at ran
    obtain ⟨inside,last,other,same⟩ := recorded_of_recover opened recorded
      (free.prefixes ⟨later,split.symm⟩ (List.take_prefix ..)) ran
    obtain ⟨kept,forged,rest,journal_eq,records_eq,longest,forgery,heads⟩ := Recorded.part whole other free
    refine ⟨⟨last,other,same⟩,kept,forged,rest,journal_eq,records_eq,fun c taken => ?_,forgery,heads⟩
    rw [bound c taken,recorded.position.1,genesis_eq]
    have := longest covered inside ⟨later,split.symm⟩
    omega

/-- An order, a checkpoint and another order recover; their records in the wrong order do not. -/
theorem recovery_reproduces_two_orders : ∃ genesis start live records,
    LiveRun.genesis sample_hashing genesis {} = .ok start ∧
    LiveRun.serve sample_hashing (LiveRun.sample_calls.take 2 ++ LiveRun.sample_calls.drop 2) start = (live,records) ∧
    records.length = 2 ∧ CollisionFree sample_hashing start.chain records records.reverse ∧
    ∃ state chain, (LiveRun.serve sample_hashing (LiveRun.sample_calls.take 2) start).1.checkpoint_state = (state,chain) ∧
      (∃ recovered, recover sample_hashing genesis (some (state,chain)) {} records = .ok recovered ∧
        recovered.state = live.state ∧ recovered.chain = live.chain ∧ recovered.index = live.index) ∧
      ∃ e, recover sample_hashing genesis (some (state,chain)) {} records.reverse = .error e := by
  obtain ⟨genesis,start,_,opened,two,free,moved⟩ := sample_starts (fun _ start =>
    let records := (LiveRun.serve sample_hashing (LiveRun.sample_calls.take 2 ++ LiveRun.sample_calls.drop 2) start).2
    records.length = 2 ∧ CollisionFree sample_hashing start.chain records records.reverse ∧
      ¬ records.reverse <+: records) (by decide +kernel)
  obtain ⟨recovers,refuses⟩ := recovery_reproduces_the_run sample_hashing genesis {} start opened (LiveRun.sample_calls.take 2)
    (LiveRun.sample_calls.drop 2) (some (LiveRun.serve sample_hashing (LiveRun.sample_calls.take 2) start).1.checkpoint_state)
    (fun c taken => (Option.mem_some.mp taken).symm) _ _ rfl
  exact ⟨genesis,start,_,_,opened,rfl,two,free,_,_,rfl,recovers,
    (refuses _ free).1 (fun record member => List.mem_reverse.mp member) (.inl moved)⟩

/-- A last record that is rewritten as the record of another input is accepted. -/
theorem rewritten_record_recovers : ∃ genesis start record record',
    LiveRun.genesis sample_hashing genesis {} = .ok start ∧
    (LiveRun.serve sample_hashing [.Execute (place 0 0 1 1 .Buy 5 (.Limit 10)) none] start).2 = [record] ∧
    record' ≠ record ∧ CollisionFree sample_hashing start.chain [record] [record'] ∧
    ∃ recovered, recover sample_hashing genesis none {} [record'] = .ok recovered := by
  obtain ⟨genesis,start,_,opened,record,_,first,record',_,other,free,recovered,accepted,_⟩ :=
    sample_starts (fun genesis start =>
    let first := (LiveRun.serve sample_hashing [.Execute (place 0 0 1 1 .Buy 5 (.Limit 10)) none] start).2
    let second := (LiveRun.serve sample_hashing [.Execute (place 0 1 1 1 .Buy 5 (.Limit 10)) none] start).2
    ∃ record, first.head? = some record ∧ first = [record] ∧ ∃ record', second.head? = some record' ∧ record' ≠ record ∧
      CollisionFree sample_hashing start.chain [record] [record'] ∧
      ∃ recovered, recover sample_hashing genesis none {} [record'] = .ok recovered ∧ True) (by decide +kernel)
  exact ⟨genesis,start,record,record',opened,first,other,free,recovered,accepted⟩

end Recovery
end RunRecovery
end Origin
end Bunting
