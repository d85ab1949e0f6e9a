import Whiteboard.Canvas.Record
import Whiteboard.Canvas.SceneJson
import Whiteboard.Proofs.Json.Decode

/-!
# Saving a canvas and loading it again

A scene that was loaded from a text is saved to a text that gives the same scene again, if all of its numbers are finite
(`Scene.parse?_render`). A number that is read may be infinite, though, and then what is saved cannot be loaded
(`Scene.parse?_render_wide`).

Layers are integers of any size here, and only those of 32 bits are read. So the theorems ask for such layers, which
everything that was loaded has (`Element.hasLayer_of_ofJson?`).
-/

namespace Whiteboard

open Json

/-! ## Transforms -/

namespace Transform

/-- All coordinates are finite. -/
def isFinite (t : Transform) : Bool := t.x.isFinite && t.y.isFinite && t.width.isFinite && t.height.isFinite

/-- The layer is a signed integer of 32 bits. -/
def HasLayer (t : Transform) : Prop := -2147483648 ≤ t.zIndex ∧ t.zIndex ≤ 2147483647

instance (t : Transform) : Decidable t.HasLayer := inferInstanceAs (Decidable (_ ∧ _))

/-- The text of a transform names no member twice. -/
theorem isProper_toJson (t : Transform) : t.toJson.IsProper :=
  isProper_record (by simp)

/-- A transform is read back exactly if all of its numbers are finite. -/
theorem ofJson?_toJson {t : Transform} (h : t.HasLayer) : ofJson? t.toJson = if t.isFinite then some t else none := by
  rw [ofJson?, toJson, toFields?_record]
  · simp [Fields.required, toSingle?_single, toInt32?_int h.1 h.2, isFinite, bind_ite_none, ite_and]
  · simp

/-- A transform that is loaded has a layer of 32 bits. -/
theorem hasLayer_of_ofJson? {j : Json} {t : Transform} (h : ofJson? j = some t) : t.HasLayer := by
  simp only [ofJson?, Option.bind_eq_bind, Option.bind_eq_some_iff, Option.pure_def, Option.some.injEq] at h
  obtain ⟨f, -, x, -, y, -, width, -, height, -, zIndex, hlayer, rfl⟩ := h
  obtain ⟨value, -, hvalue⟩ := Option.bind_eq_some_iff.1 hlayer
  exact toInt32?_bounds hvalue

end Transform

/-! ## Elements -/

namespace Element

/-- The size of a text is finite. -/
def Kind.isFinite : Kind → Bool
  | text _ _ fontSize => fontSize.isFinite
  | _ => true

/-- The text of a kind names no member twice. -/
theorem Kind.isProper_toJson (k : Kind) : k.toJson.IsProper := by
  refine isProper_record ?_
  cases k <;> simp [optionalMember, data?, isProper_record]

/-- A record with distinct members has the fields that it was made of. -/
theorem objectFields?_record (names : List String) {members : List (String × Json)} (h : (members.map Prod.fst).Nodup) :
    objectFields? names (record members) = some (.ofMembers members) :=
  toFields?_record names h

/-- The data of a text are taken back if its size is finite, those of an arrow always. -/
theorem Kind.ofData?_data? {k : Kind} {name : KindName} (h : KindName.ofName? k.name = some name) :
    ofData? name k.data? = if k.isFinite then some k else none := by
  cases k with
  | rectangle | diamond | ellipse =>
    cases h
    rfl
  | text content container? fontSize =>
    cases h
    have hfinite : isFinite (text content container? fontSize) = fontSize.isFinite := rfl
    rw [data?, ofData?, hfinite]
    simp only [Option.bind_eq_bind, Option.bind_some]
    rw [objectFields?_record]
    · simp [Fields.required, Fields.optional, toText?, toOption?_string, toSingle?_single, bind_ite_none]
    · simp
  | arrow start? finish? dashed =>
    cases h
    rw [data?, ofData?]
    simp only [Option.bind_eq_bind, Option.bind_some]
    rw [objectFields?_record]
    · simp [Fields.required, Fields.optional, toBool?, toOption?_string, isFinite]
    · simp

/-- A kind is read back exactly if its numbers are finite. -/
theorem Kind.ofJson?_toJson (k : Kind) : ofJson? k.toJson = if k.isFinite then some k else none := by
  obtain ⟨name, hname⟩ : ∃ name, KindName.ofName? k.name = some name := by
    cases k <;> exact ⟨_, rfl⟩
  rw [← Kind.ofData?_data? hname, ofJson?, toJson, toFields?_record]
  · cases hdata : k.data? with
    | none => simp [Fields.required, optionalMember, toChoice?, hname]
    | some data =>
      have horder : (record [("type", .string k.name), ("data", data)]).namesInOrder "type" "data" = true := by
        simp [record, namesInOrder]
      simp [Fields.required, optionalMember, toChoice?, hname, horder]
  · cases k.data? <;> simp [optionalMember]

/-- The text of a reference names no member twice. -/
theorem Bound.isProper_toJson (b : Bound) : b.toJson.IsProper :=
  isProper_record (by simp)

/-- A reference is read back. -/
theorem Bound.ofJson?_toJson (b : Bound) : ofJson? b.toJson = some b := by
  obtain ⟨id, kind⟩ := b
  rw [ofJson?, toJson, toFields?_record]
  · cases kind <;> simp [Fields.required, toText?, toChoice?, BoundKind.name, BoundKind.ofName?]
  · simp

/-- All numbers of an element are finite. -/
def isFinite (e : Element) : Bool := e.kind.isFinite && e.transform.isFinite

/-- The text of an element names no member twice. -/
theorem isProper_toJson (e : Element) : e.toJson.IsProper := by
  refine isProper_record ?_
  simp [Kind.isProper_toJson, Transform.isProper_toJson, isProper_list, Bound.isProper_toJson]

/-- An element is read back exactly if its numbers are finite. -/
theorem ofJson?_toJson {e : Element} (h : e.transform.HasLayer) : ofJson? e.toJson = if e.isFinite then some e else none := by
  have hbound : (list Bound.toJson e.bound).toList? Bound.ofJson? = some e.bound :=
    toList?_list_of_some fun b _ => Bound.ofJson?_toJson b
  have hgroups : (list Json.string e.groupIds).toList? toText? = some e.groupIds :=
    toList?_list_of_some fun _ _ => rfl
  rw [ofJson?, toJson, toFields?_record]
  · simp [Fields.required, Fields.defaulted, toText?, Kind.ofJson?_toJson, Transform.ofJson?_toJson h, hbound, hgroups,
      isFinite, bind_ite_none, ite_and]
  · simp

/-- Every element that is read has a layer. -/
theorem hasLayer_of_ofJson? {j : Json} {e : Element} (h : ofJson? j = some e) : e.transform.HasLayer := by
  simp only [ofJson?, Option.bind_eq_bind, Option.bind_eq_some_iff, Option.pure_def, Option.some.injEq] at h
  obtain ⟨f, -, id, -, kind, -, t, ht, bound, -, groupIds, -, rfl⟩ := h
  obtain ⟨value, -, hvalue⟩ := Option.bind_eq_some_iff.1 ht
  exact Transform.hasLayer_of_ofJson? hvalue

/-- Elements are read back exactly if the numbers of all of them are finite. -/
theorem toList?_toJson {elements : List Element} (h : ∀ e ∈ elements, e.transform.HasLayer) :
    (list toJson elements).toList? ofJson? = if elements.all (·.isFinite) then some elements else none :=
  toList?_list fun e he => ofJson?_toJson (h e he)

/-- All elements that are read have a layer. -/
theorem hasLayer_of_toList? {j : Json} {elements : List Element} (h : j.toList? ofJson? = some elements) :
    ∀ e ∈ elements, e.transform.HasLayer := by
  intro e he
  obtain ⟨value, hvalue⟩ := exists_of_mem_toList? h he
  exact hasLayer_of_ofJson? hvalue

end Element

/-! ## Scenes -/

/-- All numbers of a viewport are finite. -/
def Viewport.isFinite (v : Viewport) : Bool :=
  v.width.isFinite && v.height.isFinite && v.zoom.isFinite && v.panX.isFinite && v.panY.isFinite

namespace Scene

/-- All numbers of a scene are finite. -/
def isFinite (s : Scene) : Bool := s.elements.all (·.isFinite) && s.viewport.isFinite

/-- The text of a scene names no member twice. -/
theorem isProper_toJson (s : Scene) : s.toJson.IsProper := by
  refine isProper_record ?_
  simp [isProper_list, Element.isProper_toJson]

/-- A scene is read back exactly if its numbers are finite. -/
theorem ofJson?_toJson {s : Scene} (h : ∀ e ∈ s.elements, e.transform.HasLayer) :
    ofJson? s.toJson = if s.isFinite then some s else none := by
  rw [ofJson?, toJson, toFields?_record]
  · simp [Fields.required, Element.toList?_toJson h, toSingle?_single, isFinite, Viewport.isFinite, bind_ite_none, ite_and]
  · simp

/-- The elements of a scene that is loaded have layers of 32 bits. -/
theorem hasLayer_of_ofJson? {j : Json} {s : Scene} (h : ofJson? j = some s) : ∀ e ∈ s.elements, e.transform.HasLayer := by
  simp only [ofJson?, Option.bind_eq_bind, Option.bind_eq_some_iff, Option.pure_def, Option.some.injEq] at h
  obtain ⟨f, -, elements, helements, width, -, height, -, zoom, -, panX, -, panY, -, rfl⟩ := h
  obtain ⟨value, -, hvalue⟩ := Option.bind_eq_some_iff.1 helements
  exact Element.hasLayer_of_toList? hvalue

/-- A scene that was loaded is saved and loaded again as it is if all of its numbers are finite. Otherwise it is saved too, but
what was saved cannot be loaded. -/
theorem parse?_render {text : String} {s : Scene} (h : parse? text = some s) :
    parse? s.render = if s.isFinite then some s else none := by
  obtain ⟨j, -, hj⟩ := Option.bind_eq_some_iff.1 h
  rw [parse?, render, parse?_compact (isProper_toJson s), Option.bind_some, ofJson?_toJson (hasLayer_of_ofJson? hj)]

/-- A text that gives its records by position, by name, and with the data before the type. -/
def sketchText : String :=
  "[[[\"a\",[\"ellipse\",null],[0.1,-25e-1,16777217,1e-45,-1],[[\"t\",\"text\"]],[\"g\"]]," ++
  "\x7b\"id\":\"t\",\"kind\":\x7b\"data\":\x7b\"text\":\"\\u00e9\\n\",\"font_size\":16\x7d,\"type\":\"text\"\x7d," ++
  "\"transform\":[1,2,3,4,0]\x7d],800,600,1,-0,0]"

/-- The scene of that text. -/
def sketchScene : Scene where
  elements := [
    ⟨"a", .ellipse, { x := 0.1, y := -2.5, width := 16777216, height := 1e-45, zIndex := -1 }, [⟨"t", .text⟩], ["g"]⟩,
    ⟨"t", .text "é\n" none 16, { x := 1, y := 2, width := 3, height := 4 }, [], []⟩]
  viewport := { panX := -0 }

/-- The text is read as the scene, and so is what is saved of it. -/
theorem parse?_render_sketch :
    parse? sketchText = some sketchScene ∧ parse? sketchScene.render = some sketchScene := by
  have h : parse? sketchText = some sketchScene := by decide +kernel
  exact ⟨h, (parse?_render h).trans (if_pos (by decide +kernel))⟩

/-- A text in which a number is beyond the greatest of single precision. -/
def wideText : String :=
  "\x7b\"elements\":[],\"viewport_width\":1e39,\"viewport_height\":600.0,\"zoom\":1.0,\"pan_x\":0.0,\"pan_y\":0.0\x7d"

/-- A width beyond all numbers is loaded as infinite and cannot be loaded once it is saved. -/
theorem parse?_render_wide :
    parse? wideText = some { viewport.width := 1 / 0 } ∧ parse? (render { viewport.width := 1 / 0 }) = none := by
  decide +kernel

end Scene

/-! ## Records -/

namespace Record

/-- All numbers of a record are finite. -/
def isFinite (r : Record) : Bool := r.elements.all (·.isFinite)

/-- The text of a record names no member twice. -/
theorem isProper_toJson (r : Record) : r.toJson.IsProper := by
  refine isProper_record ?_
  simp [isProper_list, Element.isProper_toJson, nat]

/-- A record is read back exactly if its numbers are finite. -/
theorem ofJson?_toJson {r : Record} (h : ∀ e ∈ r.elements, e.transform.HasLayer) (htime : r.lastModified ≤ maxWord 64) :
    ofJson? r.toJson = if r.isFinite then some r else none := by
  rw [ofJson?, toJson, toFields?_record]
  · simp [Fields.required, Element.toList?_toJson h, toWord?_nat htime, toText?, isFinite, bind_ite_none]
  · simp

/-- A record with finite numbers is read back from its text. -/
theorem parse?_render_of_isFinite {r : Record} (h : ∀ e ∈ r.elements, e.transform.HasLayer)
    (htime : r.lastModified ≤ maxWord 64) (hfinite : r.isFinite = true) : parse? r.render = some r := by
  rw [parse?, render, parse?_pretty (isProper_toJson r), Option.bind_some, ofJson?_toJson h htime, if_pos hfinite]

end Record

end Whiteboard
