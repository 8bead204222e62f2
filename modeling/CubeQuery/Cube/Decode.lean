import CubeQuery.Cube.Member
import CubeQuery.Json.Decode

/-!
# Metadata from JSON

Decoders for cubes and members.
-/

namespace CubeQuery

open Json

def DimensionKind.ofText? : String → Option DimensionKind
  | "standard" => some .standard
  | "time" => some .time
  | "measures" => some .measures
  | _ => none

/-- A kind by its name, or as a case without a value. -/
def DimensionKind.ofJson? : Decoder DimensionKind
  | .str s => ofText? s
  | .obj [(name, .null)] => ofText? name
  | _ => none

/-- A kind by its name, or as a case without a value or without fields. -/
def DimensionKind.ofCase? : Decoder DimensionKind
  | .obj [(name, .obj [])] => ofText? name
  | v => ofJson? v

def LevelRef.ofJson? : Decoder LevelRef := fun j => do
  let r ← record? ["dimension", "hierarchy", "level"] j
  return {
    dimension := ← r.required "dimension" text?
    hierarchy := ← r.required "hierarchy" text?
    level := ← r.required "level" text? }

def Level.ofJson? : Decoder Level := fun j => do
  let r ← record? ["name", "unique_name", "caption", "depth", "properties"] j
  return {
    name := ← r.required "name" text?
    uniqueName := ← r.withDefault "unique_name" text? ""
    caption := ← r.withDefault "caption" text? ""
    depth := ← r.withDefault "depth" size? 0
    properties := ← r.withDefault "properties" (list? text?) [] }

def Hierarchy.ofJson? : Decoder Hierarchy := fun j => do
  let r ← record? ["name", "unique_name", "has_all", "all_member_name", "levels"] j
  return {
    name := ← r.required "name" text?
    uniqueName := ← r.withDefault "unique_name" text? ""
    hasAll := ← r.required "has_all" flag?
    allMemberName := ← r.optional "all_member_name" text?
    levels := ← r.required "levels" (list? Level.ofJson?) }

def Dimension.ofJson? (kind : Decoder DimensionKind) : Decoder Dimension := fun j => do
  let r ← record? ["name", "caption", "type", "annotations", "hierarchies"] j
  return {
    name := ← r.required "name" text?
    caption := ← r.withDefault "caption" text? ""
    kind := ← r.withDefault "type" kind .standard
    annotations := ← r.withDefault "annotations" (nameMap? text?) NameMap.empty
    hierarchies := ← r.required "hierarchies" (list? Hierarchy.ofJson?) }

def Measure.ofJson? : Decoder Measure := fun j => do
  let r ← record? ["name", "caption", "full_name", "visible", "annotations"] j
  return {
    name := ← r.required "name" text?
    caption := ← r.withDefault "caption" text? ""
    fullName := ← r.withDefault "full_name" text? ""
    visible := ← r.withDefault "visible" flag? true
    annotations := ← r.withDefault "annotations" (nameMap? text?) NameMap.empty }

def NamedSet.ofJson? : Decoder NamedSet := fun j => do
  let r ← record? ["name", "anchor"] j
  return {
    name := ← r.required "name" text?
    anchor := ← r.optional "anchor" LevelRef.ofJson? }

def Cube.fieldNames : List String :=
  ["name", "annotations", "dimensions", "measures", "named_sets"]

def Cube.ofRecord? (kind : Decoder DimensionKind) (r : Record) : Option Cube := do
  return {
    name := ← r.required "name" text?
    annotations := ← r.withDefault "annotations" (nameMap? text?) NameMap.empty
    dimensions := ← r.required "dimensions" (list? (Dimension.ofJson? kind))
    measures := ← r.required "measures" (list? Measure.ofJson?)
    namedSets := ← r.withDefault "named_sets" (list? NamedSet.ofJson?) [] }

def Cube.ofJson? : Decoder Cube := fun j =>
  (record? Cube.fieldNames j).bind (Cube.ofRecord? DimensionKind.ofJson?)

def Member.ofJson? : Decoder Member := fun j => do
  let r ← record? ["name", "full_name", "caption", "key", "depth", "all_member", "drillable",
    "num_children", "parent_name", "level", "properties"] j
  return {
    name := ← r.required "name" text?
    fullName := ← r.required "full_name" text?
    caption := ← r.withDefault "caption" text? ""
    key := ← r.withDefault "key" Scalar.ofJson? .null
    depth := ← r.required "depth" size?
    allMember := ← r.withDefault "all_member" flag? false
    drillable := ← r.withDefault "drillable" flag? false
    numChildren := ← r.withDefault "num_children" size? 0
    parentName := ← r.optional "parent_name" text?
    level := ← r.required "level" LevelRef.ofJson?
    properties := ← r.withDefault "properties" (nameMap? Scalar.ofJson?) NameMap.empty }

end CubeQuery
