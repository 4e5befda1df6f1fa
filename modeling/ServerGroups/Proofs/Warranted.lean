/-
ServerGroups/Proofs/Warranted.lean

When a change of the registry makes sense, and that the coordinator never asks
for another one.

The registry does what it is told: whether a change makes sense is for the
coordinator to decide.  `r.Warranted c` says what it has to have made sure of
before the call `c`:

    addGroup name        the name is free
    removeGroup name     the group is there, is not `default`, and has no member
    moveServers S a b    a and b are two groups, every server in S belongs to a,
                         and one stays behind if a pins any table
    moveTables X k       if there is a target k, it has a server

A program is `Sound` if every change it asks for is warranted, in whatever way
the services answer and whatever other activities do while it waits.  Every
program of the coordinator is.

Design.  What a program knows about the registry it knows from the answers
that it got since it last waited, so the rule here looks at the registry alone
and forgets all but the names at a wait.
-/
import ServerGroups.Proofs.Ensures
import ServerGroups.Proofs.Registry
import ServerGroups.Proofs.Schedule.Basic

namespace ServerGroups

open Program

/-- Whether a call changes the registry. -/
def Call.writes : Call → Bool
  | .addGroup _ | .removeGroup _ | .moveServers .. | .moveTables .. => true
  | _ => false

namespace Registry

variable {r r' : Registry}

/-! ### Calls -/

/-- A registry may give an answer to a call, and is then another one. -/
def Serves (r : Registry) (c : Call) (answer : c.Answer) (r' : Registry) : Prop :=
  ∃ site : Site, site.registry = r ∧ (site.serve c).answer = .ok answer ∧
    (site.serve c).site.registry = r'

/-- What the coordinator has made sure of before it changes the registry. -/
def Warranted (r : Registry) : Call → Prop
  | .addGroup name => name ∉ r.groups
  | .removeGroup name => name ≠ defaultGroup ∧ name ∈ r.groups ∧ (∀ s, ¬ r.HasServer name s) ∧
      ∀ t, ¬ r.Pins name t
  | .moveServers servers source target => source ≠ target ∧ source ∈ r.groups ∧
      target ∈ r.groups ∧ (∀ s ∈ servers, r.HasServer source s) ∧
      ∀ t, r.Pins source t → ∃ s, r.HasServer source s ∧ s ∉ servers
  | .moveTables _ (some name) => ∃ s, r.HasServer name s
  | _ => True

theorem warranted_of_reads {c : Call} (hc : c.writes = false) : r.Warranted c := by
  cases c <;> trivial

theorem Serves.eq_of_reads {c : Call} {answer : c.Answer} (h : r.Serves c answer r')
    (hc : c.writes = false) : r' = r := by
  obtain ⟨site, rfl, -, rfl⟩ := h
  cases c <;> cases hc
  case unassign region => simp only [Site.serve]; split <;> rfl
  case plan snapshot => simp only [Site.serve, Site.plan]; split <;> rfl
  case hook h => simp only [Site.serve]; split <;> rfl
  all_goals rfl

theorem Serves.group {name : String} {answer : Option Group}
    (h : r.Serves (.group name) answer r') : answer = r.groups[name]? := by
  obtain ⟨site, rfl, ha, -⟩ := h
  exact (Except.ok.inj ha).symm

theorem Serves.groupOfServer {s : ServerAddress} {answer : Option Group}
    (h : r.Serves (.groupOfServer s) answer r') : answer = r.groupOfServer? s := by
  obtain ⟨site, rfl, ha, -⟩ := h
  exact (Except.ok.inj ha).symm

theorem Serves.groupOfTable {t : TableName} {answer : Option String}
    (h : r.Serves (.groupOfTable t) answer r') : answer = r.groupOfTable? t := by
  obtain ⟨site, rfl, ha, -⟩ := h
  exact (Except.ok.inj ha).symm

theorem Serves.addGroup {name : String} {answer : Unit}
    (h : r.Serves (.addGroup name) answer r') : r.addGroup name = .ok r' := by
  obtain ⟨site, rfl, ha, rfl⟩ := h
  simp only [Site.serve] at ha ⊢
  split at ha
  · next e => rw [e]
  · cases ha

theorem Serves.removeGroup {name : String} {answer : Unit}
    (h : r.Serves (.removeGroup name) answer r') : r.removeGroup name = .ok r' := by
  obtain ⟨site, rfl, ha, rfl⟩ := h
  simp only [Site.serve] at ha ⊢
  split at ha
  · next e => rw [e]
  · cases ha

theorem Serves.moveServers {servers moved : ServerSet} {source target : String}
    (h : r.Serves (.moveServers servers source target) moved r') :
    r.moveServers servers source target = .ok (moved, r') := by
  obtain ⟨site, rfl, ha, rfl⟩ := h
  simp only [Site.serve] at ha ⊢
  split at ha
  · next e =>
    obtain rfl := Except.ok.inj ha
    rw [e]
  · cases ha

theorem Serves.moveTables {tables : TableSet} {goal : Option String} {answer : Unit}
    (h : r.Serves (.moveTables tables goal) answer r') : r.moveTables tables goal = .ok r' := by
  obtain ⟨site, rfl, ha, rfl⟩ := h
  simp only [Site.serve] at ha ⊢
  split at ha
  · next e => rw [e]
  · cases ha

/-- A change touches nothing but the registry. -/
theorem site_serve_of_writes {site : Site} {c : Call} (hc : c.writes = true) :
    (site.serve c).site = { site with registry := (site.serve c).site.registry } := by
  cases c <;> cases hc <;> simp only [Site.serve] <;> split <;> rfl

/-- A warranted change is never refused. -/
theorem Warranted.answered {site : Site} {c : Call} (h : site.registry.Warranted c)
    (hc : c.writes = true) : ∃ answer, (site.serve c).answer = .ok answer := by
  cases c <;> cases hc
  case addGroup name =>
    have hok := addGroup_eq_ok.2 ⟨h, rfl⟩
    exact ⟨(), by simp only [Site.serve, hok]⟩
  case removeGroup name =>
    have hok := removeGroup_eq_ok.2 ⟨h.1, h.2.1, rfl⟩
    exact ⟨(), by simp only [Site.serve, hok]⟩
  case moveServers servers source target =>
    obtain ⟨-, hsource, htarget, -⟩ := h
    obtain ⟨g, hg⟩ := Option.isSome_iff_exists.1 (Std.ExtTreeMap.mem_iff_isSome_getElem?.1 hsource)
    obtain ⟨⟨moved, r'⟩, hok⟩ : ∃ x, site.registry.moveServers servers source target = .ok x :=
      ⟨_, moveServers_eq_ok.2 ⟨htarget, g, hg, rfl, rfl⟩⟩
    exact ⟨moved, by simp only [Site.serve, hok]⟩
  case moveTables tables goal =>
    rcases goal with - | name
    · exact ⟨(), rfl⟩
    · obtain ⟨s, hs⟩ := h
      obtain ⟨r', hok⟩ : ∃ r', site.registry.moveTables tables (some name) = .ok r' :=
        ⟨_, moveTables_some_eq_ok.2 ⟨hs.mem, rfl⟩⟩
      exact ⟨(), by simp only [Site.serve, hok]⟩

/-- What a call may have made of a registry. -/
theorem Serves.cases {c : Call} {answer : c.Answer} (h : r.Serves c answer r') :
    (c.writes = false ∧ r' = r) ∨
    (∃ name, c = .addGroup name ∧ r.addGroup name = .ok r') ∨
    (∃ name, c = .removeGroup name ∧ r.removeGroup name = .ok r') ∨
    (∃ servers source target moved, c = .moveServers servers source target ∧
      r.moveServers servers source target = .ok (moved, r')) ∨
    (∃ tables goal, c = .moveTables tables goal ∧ r.moveTables tables goal = .ok r') := by
  by_cases hc : c.writes = false
  · exact .inl ⟨hc, h.eq_of_reads hc⟩
  · refine .inr ?_
    cases c <;> first | exact absurd rfl hc | skip
    case addGroup name => exact .inl ⟨name, rfl, h.addGroup⟩
    case removeGroup name => exact .inr (.inl ⟨name, rfl, h.removeGroup⟩)
    case moveServers servers source target =>
      exact .inr (.inr (.inl ⟨servers, source, target, answer, rfl, h.moveServers⟩))
    case moveTables tables goal => exact .inr (.inr (.inr ⟨tables, goal, rfl, h.moveTables⟩))

/-- Every call leaves every group under its name. -/
theorem Serves.named {c : Call} {answer : c.Answer} (h : r.Serves c answer r') (hr : r.Named) :
    r'.Named := by
  rcases h.cases with ⟨-, rfl⟩ | ⟨name, -, h⟩ | ⟨name, -, h⟩ | ⟨servers, source, target, moved, -, h⟩ |
    ⟨tables, goal, -, h⟩
  · exact hr
  · exact named_addGroup hr h
  · exact named_removeGroup hr h
  · exact named_moveServers hr h
  · exact named_moveTables hr h

/-! ### The rule -/

/-- Every change has to be warranted; a wait leaves only the names certain. -/
def rule : Rule Registry where
  ask
    | .call c, post, r => r.Warranted c ∧ ∀ answer r', r.Serves c answer r' → post answer r'
    | q, post, r => ∀ answer r', r' = r ∨ (q.pauses ∧ r'.Named) → post answer r'
  fail _ _ := True

theorem rule_monotone : rule.Monotone := by
  intro q post post' r h hask
  cases q with
  | call c => exact ⟨hask.1, fun answer r' hr => h _ _ (hask.2 answer r' hr)⟩
  | _ => exact fun answer r' hr => h _ _ (hask answer r' hr)

/-- Every change that a program asks for is warranted. -/
def Sound {α : Type} (p : Program α) : Prop :=
  ∀ r : Registry, r.Named → p.Ensures rule (fun _ r' => r'.Named) r

variable {α β : Type} {post : Unit → Registry → Prop}

/-! ### Rules for single requests -/

theorem ensures_read {c : Call} {post : c.Answer → Registry → Prop} (hc : c.writes = false)
    (h : ∀ answer, r.Serves c answer r → post answer r) : (call c).Ensures rule post r := by
  refine ⟨warranted_of_reads hc, fun answer r' hr => ?_⟩
  obtain rfl := hr.eq_of_reads hc
  exact h answer hr

theorem ensures_hook (h : Hook) (hp : post () r) : (hook h).Ensures rule post r :=
  ensures_read rfl fun _ _ => hp

theorem ensures_note (n : Notice) (hp : post () r) : (note n).Ensures rule post r := by
  rintro answer r' (rfl | ⟨h, -⟩)
  · exact hp
  · cases h

theorem ensures_refuseIf {p : Prop} [Decidable p] {cause : Refusal} (hp : ¬ p → post () r) :
    (refuseIf p cause).Ensures rule post r :=
  Program.ensures_refuseIf.2 ⟨fun _ => trivial, hp⟩

/-- What a program does while it holds a lock starts with any registry. -/
theorem ensures_holding {l : Lock} {body : Program α} {post : α → Registry → Prop} (hr : r.Named)
    (h : ∀ r' : Registry, r'.Named → body.Ensures rule post r') :
    (holding l body).Ensures rule post r := by
  refine Program.ensures_holding.2 fun _ r' hr' => ?_
  have hn : r'.Named := by
    rcases hr' with rfl | ⟨-, hn⟩
    · exact hr
    · exact hn
  refine (h r' hn).mono rule_monotone fun a r'' ha => ?_
  rintro answer r₃ (rfl | ⟨hq, -⟩)
  · exact ha
  · cases hq

/-! ### Sound programs -/

theorem sound_pure (a : α) : Sound (pure a : Program α) := fun _ hr => hr

theorem sound_fail (cause : Error) : Sound (fail cause : Program α) := fun _ _ => trivial

theorem Sound.bind {p : Program α} {f : α → Program β} (hp : Sound p) (hf : ∀ a, Sound (f a)) :
    Sound (p >>= f) := by
  intro r hr
  rw [ensures_bind]
  exact (hp r hr).mono rule_monotone fun a r' hr' => hf a r' hr'

theorem sound_ask {q : Request} {next : q.Answer → Program α} (hq : ∀ c, q ≠ .call c)
    (hn : ∀ a, Sound (next a)) : Sound (ask q next) := by
  intro r hr
  cases q with
  | call c => exact absurd rfl (hq c)
  | _ =>
    rintro answer r' (rfl | ⟨-, hr'⟩)
    · exact hn answer _ hr
    · exact hn answer _ hr'

theorem sound_read {c : Call} (hc : c.writes = false) : Sound (call c) :=
  fun _ hr => ensures_read hc fun _ _ => hr

theorem sound_hook (h : Hook) : Sound (hook h) := sound_read rfl

theorem sound_note (n : Notice) : Sound (note n) := fun _ hr => ensures_note n hr

theorem sound_refuseIf {p : Prop} [Decidable p] {cause : Refusal} : Sound (refuseIf p cause) :=
  fun _ hr => ensures_refuseIf fun _ => hr

theorem Sound.holding {l : Lock} {body : Program α} (h : Sound body) :
    Sound (Program.holding l body) :=
  fun _ hr => ensures_holding hr h

theorem sound_forM {f : α → Program Unit} (h : ∀ a, Sound (f a)) (l : List α) :
    Sound (l.forM f) := by
  induction l with
  | nil => exact sound_pure ()
  | cons a l ih => exact (h a).bind fun _ => ih

end Registry

end ServerGroups
