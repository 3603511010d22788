import ChatCommands.Proofs.StoreContent
import ChatCommands.Registry

/-!
# How calls of a registry end

To publish an entry is a look and a writing. The store may deny either, and then nothing is written:
`add_ends` lists the ways in which publishing ends, with the host that each leaves. Looking and
listing leave the host as it is, whatever the store denies (`get_host`, `list_host`).
-/

namespace ChatCommands

namespace Hosted

theorem bind_host {α β : Type} {work : Hosted α} {next : α → Hosted β} {h : Host}
    (hwork : (work.run.run h).2 = h)
    (hnext : ∀ a, (work.run.run h).1 = .ok a → ((next a).run.run h).2 = h) :
    ((work >>= next).run.run h).2 = h := by
  rw [run_run_bind]
  cases hrun : work.run.run h with
  | mk result after =>
    rw [hrun] at hwork hnext
    obtain rfl : after = h := hwork
    cases result with
    | error failure => rfl
    | ok a => exact hnext a rfl

end Hosted

namespace Registry

/-! ## Publishing -/

/-- How `add` ends: the result, and the host after it. -/
inductive AddEnds (r : Registry) (entry : Entry) (h : Host) : Except Failure Bool × Host → Prop
  | unread {failure : StoreFailure}
    (hdenied : h.denied? r.store (.read (r.key entry.name)) = some failure) :
    AddEnds r entry h (.error (.store failure), h)
  -- something is published under the name already
  | found {c : Content} {hash : Hash}
    (hserved : h.denied? r.store (.read (r.key entry.name)) = none)
    (hopen : h.content? r.store = some c) (hget : c.get? (r.key entry.name) = some hash) :
    AddEnds r entry h (.ok false, h.noted (.alreadyPublished entry.name))
  | unwritten {c : Content} {failure : StoreFailure}
    (hserved : h.denied? r.store (.read (r.key entry.name)) = none)
    (hopen : h.content? r.store = some c) (hget : c.get? (r.key entry.name) = none)
    (hdenied : h.denied? r.store (.write (r.key entry.name) entry.toHash) = some failure) :
    AddEnds r entry h (.error (.store failure), h)
  | written {c : Content} {after : Host}
    (hserved : h.denied? r.store (.read (r.key entry.name)) = none)
    (hopen : h.content? r.store = some c) (hget : c.get? (r.key entry.name) = none)
    (hwritten : Host.Written r.store (r.key entry.name) entry.toHash h after)
    (hset : (Hosted.setHash r.store (r.key entry.name) entry.toHash).run.run h = (.ok (), after)) :
    AddEnds r entry h (.ok true, after.noted (.published entry.name))

section
variable {r : Registry} {h : Host} {c : Content}

theorem run_isPublished (hopen : h.content? r.store = some c) {name : String}
    (hserved : h.denied? r.store (.read (r.key name)) = none) :
    (r.isPublished name).run.run h = (.ok (c.get? (r.key name)).isSome, h) := by
  simp only [isPublished, run_run_bind, Hosted.run_getHash hserved hopen, run_run_pure]

theorem run_isPublished_of_denied {name : String} {failure : StoreFailure}
    (hdenied : h.denied? r.store (.read (r.key name)) = some failure) :
    (r.isPublished name).run.run h = (.error (.store failure), h) := by
  simp only [isPublished, run_run_bind, Hosted.run_getHash_of_denied hdenied]

theorem add_ends (r : Registry) (entry : Entry) (h : Host) :
    AddEnds r entry h ((r.add entry).run.run h) := by
  cases hserved : h.denied? r.store (.read (r.key entry.name)) with
  | some failure =>
    rw [add, run_run_bind, run_isPublished_of_denied hserved]
    exact .unread hserved
  | none =>
    obtain ⟨c, hopen⟩ := Host.exists_content?_of_denied?_eq_none hserved
    rw [add, run_run_bind, run_isPublished hopen hserved]
    cases hget : c.get? (r.key entry.name) with
    | some hash => exact .found hserved hopen hget
    | none =>
      -- the look has found nothing, so what comes of the writing decides
      simp only [Option.isSome_none, Bool.false_eq_true, if_false, run_run_bind, publish]
      cases hwrite : h.denied? r.store (.write (r.key entry.name) entry.toHash) with
      | some failure =>
        rw [Hosted.run_setHash_of_denied hwrite]
        exact .unwritten hserved hopen hget hwrite
      | none =>
        obtain ⟨after, hset, hwritten⟩ := Hosted.run_setHash hwrite hopen
        rw [hset]
        exact .written hserved hopen hget hwritten hset

/-! ## Looking and listing -/

theorem orInvalid_host {α : Type} (checked : Checked α) (h : Host) :
    ((orInvalid checked).run.run h).2 = h := by
  cases checked <;> rfl

theorem get_host (r : Registry) (name : String) (h : Host) : ((r.get name).run.run h).2 = h := by
  refine Hosted.bind_host (Hosted.getHash_host _ _ h) fun hash _ => ?_
  cases hash with
  | none => rfl
  | some hash => exact Hosted.bind_host (orInvalid_host _ h) fun _ _ => rfl

theorem entriesAt_host (r : Registry) (keys : List String) (h : Host) :
    ((r.entriesAt keys).run.run h).2 = h := by
  induction keys with
  | nil => rfl
  | cons key keys ih =>
    refine Hosted.bind_host (Hosted.getHash_host _ _ h) fun hash _ => ?_
    cases hash with
    | none => exact ih
    | some hash =>
      exact Hosted.bind_host (orInvalid_host _ h) fun _ _ => Hosted.bind_host ih fun _ _ => rfl

theorem list_host (r : Registry) (h : Host) : (r.list.run.run h).2 = h :=
  Hosted.bind_host (Hosted.keys_host _ _ h) fun _ _ =>
    Hosted.bind_host (r.entriesAt_host _ h) fun _ _ => rfl

theorem run_get_of_denied {name : String} {failure : StoreFailure}
    (hdenied : h.denied? r.store (.read (r.key name)) = some failure) :
    (r.get name).run.run h = (.error (.store failure), h) := by
  simp only [get, run_run_bind, Hosted.run_getHash_of_denied hdenied]

theorem run_list_of_denied {failure : StoreFailure}
    (hdenied : h.denied? r.store (.search (r.keyPrefix ++ ".")) = some failure) :
    r.list.run.run h = (.error (.store failure), h) := by
  simp only [list, run_run_bind, Hosted.run_keys_of_denied hdenied]

end

end Registry

end ChatCommands
