import RemoteView.Expr.Decode
import RemoteView.Expr.Encode

/-! # Reading what was written: expressions

An expression can be read off its written form again.
-/

namespace RemoteView

@[simp] theorem Number.toUInt32?_ofUInt64 (n : UInt32) :
    (Number.ofUInt64 n.toUInt64).toUInt32? = some n := by
  have := n.toNat_lt
  simp [Number.ofUInt64, Number.toUInt32?, UInt32.size]
  omega

@[simp] theorem Json.toUInt64?_ofUInt64 (n : UInt64) : (ofUInt64 n).toUInt64? = some n :=
  Number.toUInt64?_ofUInt64 n

@[simp] theorem Json.toUInt32?_ofUInt32 (n : UInt32) : (ofUInt32 n).toUInt32? = some n :=
  Number.toUInt32?_ofUInt64 n

namespace Expr

@[simp] theorem Tag.ofName?_name (tag : Tag) : Tag.ofName? tag.name = some tag := by
  cases tag <;> decide

@[simp] theorem holeIndex?_ofUInt32 (index : UInt32) :
    holeIndex? (.ofUInt32 index) = some index :=
  Number.toUInt32?_ofUInt64 index

theorem decode_hole {raw : Json} {index : UInt32} (isIndex : holeIndex? raw = some index) :
    decode (Tag.holeE.node [raw]) = .ok (.hole index) := by
  simp only [Tag.node, decode, Tag.ofName?_name, isIndex]

mutual
theorem decode_encode (e : Expr) : decode e.encode = .ok e := by
  cases e with
  | global | nothing | tuple0 | literal =>
      simp only [encode, Tag.node, decode, Tag.ofName?_name]
  | hole index => exact decode_hole (holeIndex?_ofUInt32 index)
  | deref key => simp only [encode, Tag.node, decode, Tag.ofName?_name, refKey?]
  | just inner | refHandler inner | tuple1 _ inner =>
      have isInner := decode_encode inner
      simp only [encode, Tag.node, decode, Tag.ofName?_name, isInner]
      rfl
  | tuple2 _ first second | get first second =>
      have isFirst := decode_encode first
      have isSecond := decode_encode second
      simp only [encode, Tag.node, decode, Tag.ofName?_name, isFirst, isSecond]
      rfl
  | invoke method object arguments =>
      have isMethod := decode_encode method
      have isObject := decode_encode object
      have areArguments := decodeAll_encodeAll arguments
      simp only [encode, Tag.node, decode, Tag.ofName?_name, isMethod, isObject, areArguments]
      rfl
  | eventHandler preventDefault stopPropagation stopImmediate action =>
      have isPrevent := decode_encode preventDefault
      have isStop := decode_encode stopPropagation
      have isImmediate := decode_encode stopImmediate
      have isAction := decode_encode action
      simp only [encode, Tag.node, decode, Tag.ofName?_name, isPrevent, isStop, isImmediate,
        isAction]
      rfl
termination_by sizeOf e

theorem decodeAll_encodeAll (es : List Expr) : decodeAll (encodeAll es) = .ok es := by
  cases es with
  | nil => rfl
  | cons first rest =>
      have isFirst := decode_encode first
      have areRest := decodeAll_encodeAll rest
      simp only [encodeAll, decodeAll, isFirst, areRest]
      rfl
termination_by sizeOf es
end

end Expr

end RemoteView
