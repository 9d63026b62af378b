import TypedClient.Proofs.Distinct
import TypedClient.Proofs.Extraction.Result
/-!
# The parameters of an operation

The parameters of a path and those of an operation are followed to their ends
and put together by name and location: each takes the place of the one that is
there, or a new place at the end (`Merged.place`). So each name and location has
one place, that of its first parameter, and the last parameter stands there. The
arguments of an endpoint are these parameters by their locations
(`parameters_merged`).
-/

namespace TypedClient

namespace Source

open Synthesis (run_bind_eq_ok)

variable {source : Source} {options : Options} {item : PathItem} {operation : Operation}
variable {path : String} {method : Method} {endpoint : Endpoint} {r r' : Registry}
variable {parameter q : Parameter} {all merged placed : List Parameter}
variable {declared : List (RefOr Parameter)} {location : Location}

/-- Parameters that are declared lead to parameters. -/
def LeadTo (source : Source) (declared : List (RefOr Parameter)) (all : List Parameter) : Prop :=
  List.Forall₂ (fun d p => d.follow source.raw Parameter.ofJson = .ok p) declared all

/-- **Parameters put together by name and location.** -/
structure Merged (all merged : List Parameter) : Prop where
  /-- Each name and location has one place, in the order of their first
  parameters. -/
  slots : merged.map slot = (all.map slot).eraseDups
  /-- What stands in a place is the last parameter for it. -/
  last : ∀ p ∈ merged, ∃ before after, all = before ++ p :: after ∧ ∀ q ∈ after, slot q ≠ slot p

theorem Merged.nodup (h : Merged all merged) : (merged.map slot).Nodup := by
  rw [h.slots]
  exact nodup_eraseDups _

/-! ## One parameter more -/

/-- What is placed among parameters of different slots leaves no other parameter
of its slot. -/
theorem mem_place (hnodup : (placed.map slot).Nodup) (h : q ∈ place parameter placed) :
    q = parameter ∨ q ∈ placed ∧ slot q ≠ slot parameter := by
  induction placed with
  | nil => exact .inl (List.mem_singleton.1 h)
  | cons p rest ih =>
    rw [List.map_cons, List.nodup_cons] at hnodup
    rw [place_cons] at h
    split at h
    · rename_i hslot
      refine (List.mem_cons.1 h).imp_right fun hq => ⟨List.mem_cons_of_mem _ hq, fun heq => ?_⟩
      exact hnodup.1 (hslot ▸ heq ▸ List.mem_map_of_mem hq)
    · rename_i hslot
      rcases List.mem_cons.1 h with rfl | hq
      · exact .inr ⟨List.mem_cons_self, hslot⟩
      · exact (ih hnodup.2 hq).imp_right (And.imp_left (List.mem_cons_of_mem _))

/-- **A parameter more is merged by placing it.** -/
theorem Merged.place (h : Merged all merged) (p : Parameter) :
    Merged (all ++ [p]) (Source.place p merged) where
  slots := by
    rw [slots_place, h.slots, List.map_append, List.map_singleton]
    by_cases hp : slot p ∈ all.map slot
    · rw [if_pos (List.mem_eraseDups.2 hp), eraseDups_append_of_mem hp]
    · rw [if_neg fun hmem => hp (List.mem_eraseDups.1 hmem), eraseDups_append_of_not_mem hp]
  last := by
    intro q hq
    obtain rfl | ⟨hmerged, hslot⟩ := mem_place h.nodup hq
    · exact ⟨all, [], rfl, by simp⟩
    · obtain ⟨before, after, rfl, hafter⟩ := h.last q hmerged
      refine ⟨before, after ++ [p], by simp, List.forall_mem_append.2 ⟨hafter, ?_⟩⟩
      exact List.forall_mem_singleton.2 (Ne.symm hslot)

/-- Parameters that are placed one after another are merged. -/
theorem merged_foldl (all : List Parameter) :
    Merged all (all.foldl (fun placed p => place p placed) []) := by
  induction all using List.reverseRecOn with
  | nil => exact ⟨rfl, by simp⟩
  | append_singleton all p ih =>
    rw [List.foldl_append]
    exact ih.place p

/-! ## The parameters that are placed -/

theorem placeAll_eq_foldl (h : LeadTo source declared all) :
    placeAll source placed declared = .ok (all.foldl (fun placed p => place p placed) placed) := by
  induction h generalizing placed with
  | nil => rfl
  | @cons d p _ _ hfollow _ ih =>
    rw [placeAll, hfollow]
    exact ih

/-- **The parameters of an operation are merged**, if all of them are followed. -/
theorem exists_parameters (h : LeadTo source (item.parameters ++ operation.parameters) all) :
    ∃ merged, source.parameters item operation = .ok merged ∧ Merged all merged :=
  ⟨_, placeAll_eq_foldl h, merged_foldl all⟩

/-! ## Arguments -/

theorem argumentsAt_path : argumentsAt .path all = (all.filter (·.location == .path)).map
    fun p => ⟨p.name, p.description, true, SimpleType.ofSchema? p.schema⟩ := by
  refine List.map_congr_left fun p hp => ?_
  rw [argument, (List.mem_filter.1 hp).2, Bool.or_true]

theorem argumentsAt_of_ne (h : location ≠ .path) :
    argumentsAt location all = (all.filter (·.location == location)).map
      fun p => ⟨p.name, p.description, p.required, SimpleType.ofSchema? p.schema⟩ := by
  refine List.map_congr_left fun p hp => ?_
  have hne : (p.location == .path) = false := by
    rw [eq_of_beq (List.mem_filter.1 hp).2]
    exact beq_eq_false_iff_ne.2 h
  rw [argument, hne, Bool.or_false]

/-- What is settled with a result has that result. -/
theorem eq_ok_of_settle {α : Type} {result : Except Error α} {a : α}
    (h : (settle result).run r = (.ok a, r')) : result = .ok a := by
  cases result with
  | ok b =>
    cases h
    rfl
  | error e => cases h

/-- **The arguments of an endpoint are the parameters of its operation.** -/
theorem arguments_of_endpoint
    (h : (source.endpoint options path method item operation).run r = (.ok endpoint, r')) :
    ∃ parameters, source.parameters item operation = .ok parameters ∧
      endpoint.pathArguments = argumentsAt .path parameters ∧
      endpoint.headerArguments = argumentsAt .header parameters ∧
      endpoint.queryArguments = argumentsAt .query parameters := by
  obtain ⟨basicAuth, _, -, h⟩ := run_bind_eq_ok h
  obtain ⟨parameters, _, hparameters, h⟩ := run_bind_eq_ok h
  obtain ⟨body, _, -, h⟩ := run_bind_eq_ok h
  obtain ⟨outcomes, _, -, h⟩ := run_bind_eq_ok h
  cases h
  exact ⟨parameters, eq_ok_of_settle hparameters, rfl, rfl, rfl⟩

/-- **Parameters override in place and none is lost.** Where all parameters of a
path and of an operation can be followed, those of the path first, each name and
location among them has one parameter, in the order of their first parameters:
the last one for it. The arguments of the endpoint in the path, in the headers
and in the query are just these parameters at these locations, in that order;
those in the path are required, and the others as they are declared. -/
theorem parameters_merged (h : LeadTo source (item.parameters ++ operation.parameters) all) :
    ∃ merged, source.parameters item operation = .ok merged ∧ Merged all merged ∧
      ∀ options path method r endpoint r',
        (source.endpoint options path method item operation).run r = (.ok endpoint, r') →
        endpoint.pathArguments = ((merged.filter (·.location == .path)).map
          fun p => ⟨p.name, p.description, true, SimpleType.ofSchema? p.schema⟩) ∧
        endpoint.headerArguments = ((merged.filter (·.location == .header)).map
          fun p => ⟨p.name, p.description, p.required, SimpleType.ofSchema? p.schema⟩) ∧
        endpoint.queryArguments = (merged.filter (·.location == .query)).map
          fun p => ⟨p.name, p.description, p.required, SimpleType.ofSchema? p.schema⟩ := by
  obtain ⟨merged, hmerged, hall⟩ := exists_parameters h
  refine ⟨merged, hmerged, hall, fun options path method r endpoint r' hrun => ?_⟩
  obtain ⟨parameters, hparameters, hpath, hheader, hquery⟩ := arguments_of_endpoint hrun
  obtain rfl : merged = parameters := Except.ok.inj (hmerged.symm.trans hparameters)
  rw [hpath, hheader, hquery]
  exact ⟨argumentsAt_path, argumentsAt_of_ne (by decide), argumentsAt_of_ne (by decide)⟩

/-- A description with a parameter that is referred to. -/
def sharedLimit : Source where
  raw := .object [("components", .object [("parameters", .object [
    ("Limit", .object [("name", .string "limit"), ("in", .string "query")])])])]
  document := .blank

/-- A path with this parameter, and with a header of the same name. -/
def limitedPath : PathItem :=
  { PathItem.blank with
    parameters := [.reference "#/components/parameters/Limit",
      .item ⟨"id", .path, none, false, none⟩, .item ⟨"limit", .header, none, false, none⟩] }

/-- An operation with a parameter in the place of the one that is referred to. -/
def ownLimit : Operation :=
  { Operation.blank with
    parameters := [.item ⟨"trace", .cookie, none, false, none⟩,
      .item ⟨"limit", .query, some "Own", true, none⟩] }

/-- The parameters of the path and of the operation. -/
def allLimits : List Parameter :=
  [⟨"limit", .query, none, false, none⟩, ⟨"id", .path, none, false, none⟩,
    ⟨"limit", .header, none, false, none⟩, ⟨"trace", .cookie, none, false, none⟩,
    ⟨"limit", .query, some "Own", true, none⟩]

/-- The operation's own parameter stands where that of the path stood. -/
theorem parameters_merged_of_ownLimit :
    LeadTo sharedLimit (limitedPath.parameters ++ ownLimit.parameters) allLimits ∧
    Merged allLimits [⟨"limit", .query, some "Own", true, none⟩, ⟨"id", .path, none, false, none⟩,
      ⟨"limit", .header, none, false, none⟩, ⟨"trace", .cookie, none, false, none⟩] ∧
    ∃ endpoint r', (sharedLimit.endpoint .default "/pets" .get limitedPath ownLimit).run
        Registry.empty = (.ok endpoint, r') ∧
      endpoint.pathArguments = [⟨"id", none, true, .any⟩] ∧
      endpoint.headerArguments = [⟨"limit", none, false, .any⟩] ∧
      endpoint.queryArguments = [⟨"limit", some "Own", true, .any⟩] := by
  have hlead : LeadTo sharedLimit (limitedPath.parameters ++ ownLimit.parameters) allLimits :=
    .cons rfl (.cons rfl (.cons rfl (.cons rfl (.cons rfl .nil))))
  have hplaced : sharedLimit.parameters limitedPath ownLimit = .ok
      [⟨"limit", .query, some "Own", true, none⟩, ⟨"id", .path, none, false, none⟩,
        ⟨"limit", .header, none, false, none⟩, ⟨"trace", .cookie, none, false, none⟩] := rfl
  have hrun : ∃ endpoint r', (sharedLimit.endpoint .default "/pets" .get limitedPath ownLimit).run
      Registry.empty = (.ok endpoint, r') := ⟨_, _, rfl⟩
  obtain ⟨merged, hmerged, hall, harguments⟩ := parameters_merged hlead
  obtain rfl := Except.ok.inj (hplaced.symm.trans hmerged)
  obtain ⟨endpoint, r', hrun⟩ := hrun
  exact ⟨hlead, hall, endpoint, r', hrun, harguments _ _ _ _ _ _ hrun⟩

end Source

end TypedClient
